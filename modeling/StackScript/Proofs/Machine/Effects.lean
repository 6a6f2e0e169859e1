import StackScript.Proofs.Bytecode.Discipline
import StackScript.Proofs.Machine.Transitions

/-! What an instruction does when it finds the values that it takes above the base of its frame
and what it names in the program. It stays in its frame and touches nothing below the base,
it enters a function or returns from one, it ends the run, or it fails for a reason that a
script can cause.
-/

namespace StackScript

variable {σ : Type}

/-- The fault can only be caused by code from elsewhere. -/
def Fault.isInternal : Fault → Bool
  | .malformed _ => true
  | .noFunction _ => true
  | .noString _ => true
  | .noLocal _ => true
  | .stackUnderflow => true
  | .ranPastEnd _ => true
  | _ => false

/-- A function value is in the table of the program. -/
def Value.KnownIn (program : Program) : Value → Prop
  | .function id => (program.function? id.toNat).isSome
  | _ => True

/-- Every function value on the stack and in the globals is in the table. -/
structure State.Known (program : Program) (s : State σ) : Prop where
  stack : ∀ value ∈ s.stack, value.KnownIn program
  globals : ∀ value, some value ∈ s.globals → value.KnownIn program

-----------------------------------------------------------------------------------------
-- Effects
-----------------------------------------------------------------------------------------

/-- The frame of one state goes on in another. -/
structure State.SameFrame (before after : State σ) : Prop where
  callers : after.callers = before.callers
  function : after.function = before.function
  base : after.base = before.base
  result : after.result = before.result

/-- An instruction has changed the stack above the base by as much as it always does. -/
structure Stays (program : Program) (instruction : Instruction) (before after : State σ) : Prop
    where
  frame : before.SameFrame after
  moves
    : (instruction.passes = true ∧ after.ip = before.ip)
      ∨ ∃ when offset, instruction = .jump when offset ∧ after.ip = before.ip + offset.toNat
  size : after.stack.size = instruction.heightAfter before.stack.size
  below : ∀ place < before.base, after.stack[place]? = before.stack[place]?
  known : after.Known program

/-- What comes of an instruction. A fault that only code from elsewhere can cause does not. -/
inductive Effect (program : Program) (instruction : Instruction) (before : State σ)
    : Outcome × State σ → Prop
  | stays {after : State σ} (stays : Stays program instruction before after)
    : Effect program instruction before (.running, after)
  | enters {argCount id : UInt8} {function : Function} (call : instruction = .call argCount)
    (callee
      : before.stack[before.stack.size - (argCount.toNat + 1)]? = some (.function id))
    (found : program.function? id.toNat = some function) (arity : function.arity = argCount)
    : Effect program instruction before
        (.running,
          { before with
            callers := before.callers.push ⟨before.function, before.ip, before.base⟩
            function := id.toNat
            ip := 0
            base := before.stack.size - (argCount.toNat + 1) + 1 })
  | returns {frame : Frame} {value : Value} (ret : instruction = .ret)
    (top : before.stack.back? = some value) (caller : before.callers.back? = some frame)
    : Effect program instruction before
        (.running,
          { before with
            stack := (before.stack.pop.shrink (before.base - 1)).push value
            callers := before.callers.pop
            ip := frame.ip
            base := frame.base
            function := frame.function })
  | halts {value : Value} (ret : instruction = .ret) (top : before.stack.back? = some value)
    (bottom : before.callers.back? = none)
    : Effect program instruction before (.halted value, { before with result := some value })
  | fails {fault : Fault} {after : State σ} (external : fault.isInternal = false)
    : Effect program instruction before (.failed fault, after)

-----------------------------------------------------------------------------------------
-- Values
-----------------------------------------------------------------------------------------

theorem Operator.applyValues_known {program : Program} {op : Operator} {left right value : Value}
    (applied : op.applyValues left right = .ok value)
    : value.KnownIn program := by
  unfold applyValues at applied
  split at applied
  · obtain rfl := Except.ok.inj applied
    cases op <;> trivial
  · cases applied

theorem Operator.applyValues_fault {op : Operator} {left right : Value} {fault : Fault}
    (failed : op.applyValues left right = .error fault)
    : fault.isInternal = false := by
  unfold applyValues at failed
  split at failed
  · cases failed
  · obtain rfl := Except.error.inj failed
    rfl

section

variable [Sink σ]

theorem Builtin.call_known {program : Program} {builtin : Builtin} {args : List Value}
    {sink after : σ} {value : Value} (called : builtin.call args sink = (.ok value, after))
    : value.KnownIn program := by
  cases builtin with
  | emit =>
      simp only [call] at called
      split at called <;> cases called
      trivial
  | typeOf =>
      simp only [call] at called
      split at called <;> cases called
      trivial

theorem Builtin.call_fault {builtin : Builtin} {args : List Value} {sink after : σ}
    {fault : Fault} (failed : builtin.call args sink = (.error fault, after))
    : fault.isInternal = false := by
  cases builtin with
  | emit =>
      simp only [call] at failed
      split at failed <;> cases failed
      rfl
  | typeOf =>
      simp only [call] at failed
      split at failed <;> cases failed
      rfl

end

namespace State.Known

variable {program : Program} {s : State σ}

theorem push {value : Value} (known : s.Known program) (new : value.KnownIn program)
    : ∀ other ∈ s.stack.push value, other.KnownIn program := by
  intro other member
  rcases Array.mem_push.mp member with member | rfl
  · exact known.stack other member
  · exact new

theorem pop (known : s.Known program) : ∀ value ∈ s.stack.pop, value.KnownIn program := by
  intro value member
  rw [← Array.mem_toList_iff, Array.toList_pop] at member
  exact known.stack value (Array.mem_toList_iff.mp (List.dropLast_subset _ member))

theorem shrink (known : s.Known program) (size : Nat)
    : ∀ value ∈ s.stack.shrink size, value.KnownIn program := by
  intro value member
  rw [← Array.mem_toList_iff, Array.toList_shrink] at member
  exact known.stack value (Array.mem_toList_iff.mp (List.mem_of_mem_take member))

theorem top {value : Value} (known : s.Known program) (top : s.stack.back? = some value)
    : value.KnownIn program :=
  known.stack value (Array.mem_of_back? top)

end State.Known

-----------------------------------------------------------------------------------------
-- Instructions
-----------------------------------------------------------------------------------------

theorem getElem?_shrink {values : Array Value} {size place : Nat} (low : place < size)
    : (values.shrink size)[place]? = values[place]? := by
  rw [← Array.getElem?_toList, Array.toList_shrink, List.getElem?_take_of_lt low,
    Array.getElem?_toList]

namespace Effect

variable {m : Machine} {s : State σ}

/-- Putting a value on the stack, which some values were taken from before. -/
theorem push {instruction : Instruction} {before : State σ} {value : Value}
    (frame : before.SameFrame s) (passes : instruction.passes = true) (ip : s.ip = before.ip)
    (size : s.stack.size + 1 = instruction.heightAfter before.stack.size)
    (base : before.base ≤ s.stack.size)
    (below : ∀ place < before.base, s.stack[place]? = before.stack[place]?)
    (known : s.Known m.program) (new : value.KnownIn m.program)
    : Effect m.program instruction before (m.push value s) := by
  unfold Machine.push
  split
  · exact .fails rfl
  · refine .stays ⟨⟨frame.callers, frame.function, frame.base, frame.result⟩, .inl ⟨passes, ip⟩, ?_,
      ?_, ⟨known.push new, known.globals⟩⟩
    · rw [← size]
      exact Array.size_push value
    · intro place low
      rw [← below place low]
      exact (Array.getElem?_push).trans (if_neg (by omega))

/-- Going on in the same frame with the stack as it is or without its top. -/
theorem forward {instruction : Instruction} {ip : Nat} {stack : Array Value}
    (moves
      : (instruction.passes = true ∧ ip = s.ip)
        ∨ ∃ when offset, instruction = .jump when offset ∧ ip = s.ip + offset.toNat)
    (size : stack.size = instruction.heightAfter s.stack.size)
    (below : ∀ place < s.base, stack[place]? = s.stack[place]?)
    (known : ∀ value ∈ stack, value.KnownIn m.program) (globals : s.Known m.program)
    : Effect m.program instruction s (.running, { s with ip := ip, stack := stack }) :=
  .stays ⟨⟨rfl, rfl, rfl, rfl⟩, moves, size, below, ⟨known, globals.globals⟩⟩

theorem top_of_demand (enough : s.base + 1 ≤ s.stack.size) : ∃ top, s.stack.back? = some top := by
  rw [Array.back?_eq_getElem?]
  exact ⟨_, Array.getElem?_eq_getElem (by omega)⟩

theorem pop_below (enough : s.base + 1 ≤ s.stack.size)
    : ∀ place < s.base, s.stack.pop[place]? = s.stack[place]? := by
  intro place low
  exact (Array.getElem?_pop).trans (if_pos (by omega))

/-- A jump stays in its frame, wherever it goes. -/
theorem jump {when : Jump} {offset : UInt16}
    (enough : s.base + (Instruction.jump when offset).demand ≤ s.stack.size)
    (known : s.Known m.program)
    : Effect m.program (.jump when offset) s (Machine.jump when offset s) := by
  have same : ∀ place < s.base, s.stack[place]? = s.stack[place]? := fun _ _ => rfl
  have taken : ∀ ip, ip = s.ip + offset.toNat
      → ((Instruction.jump when offset).passes = true ∧ ip = s.ip)
        ∨ ∃ when' offset', Instruction.jump when offset = .jump when' offset'
          ∧ ip = s.ip + offset'.toNat :=
    fun _ target => .inr ⟨when, offset, rfl, target⟩
  cases when with
  | always => exact .forward (taken _ rfl) rfl same known.stack known
  | popFalsy =>
      obtain ⟨top, found⟩ := top_of_demand enough
      have less : s.stack.pop.size = s.stack.size - 1 := Array.size_pop
      simp only [Machine.jump, found, State.jumpIf]
      split
      · exact .forward (taken _ rfl) less (pop_below enough) known.pop known
      · exact .forward (.inl ⟨rfl, rfl⟩) less (pop_below enough) known.pop known
  | keepTruthy =>
      obtain ⟨top, found⟩ := top_of_demand enough
      simp only [Machine.jump, found, State.jumpIf]
      split
      · exact .forward (taken _ rfl) rfl same known.stack known
      · exact .forward (.inl ⟨rfl, rfl⟩) rfl same known.stack known
  | keepFalsy =>
      obtain ⟨top, found⟩ := top_of_demand enough
      simp only [Machine.jump, found, State.jumpIf]
      split
      · exact .forward (taken _ rfl) rfl same known.stack known
      · exact .forward (.inl ⟨rfl, rfl⟩) rfl same known.stack known

/-- An access to a variable stays in its frame. -/
theorem access {what : Access} {slot : UInt8}
    (enough : s.base + (Instruction.access what slot).demand ≤ s.stack.size)
    (known : s.Known m.program)
    : Effect m.program (.access what slot) s (m.access what slot s) := by
  have same : ∀ place < s.base, s.stack[place]? = s.stack[place]? := fun _ _ => rfl
  cases what with
  | getLocal =>
      have inside : s.base + slot.toNat < s.stack.size := enough
      simp only [Machine.access, Array.getElem?_eq_getElem inside]
      exact .push ⟨rfl, rfl, rfl, rfl⟩ rfl rfl rfl (by omega) same known
        (known.stack _ (Array.getElem_mem inside))
  | setLocal =>
      have inside : s.base + slot.toNat < s.stack.size := enough
      obtain ⟨top, found⟩ := top_of_demand (s := s) (by omega)
      simp only [Machine.access, found, if_pos inside]
      refine .forward (.inl ⟨rfl, rfl⟩) (Array.size_setIfInBounds ..) ?_ ?_ known
      · intro place low
        exact Array.getElem?_setIfInBounds_ne (by omega)
      · intro value member
        rcases Array.mem_or_eq_of_mem_setIfInBounds member with member | rfl
        · exact known.stack value member
        · exact known.top found
  | getGlobal =>
      simp only [Machine.access]
      split
      · exact .fails rfl
      · rename_i value found
        have member : some value ∈ s.globals :=
          Array.mem_of_getElem? (Option.join_eq_some_iff.mp found)
        exact .push ⟨rfl, rfl, rfl, rfl⟩ rfl rfl rfl (by omega) same known
          (known.globals value member)
  | setGlobal =>
      obtain ⟨top, found⟩ := top_of_demand enough
      simp only [Machine.access, found]
      split
      · exact .forward (.inl ⟨rfl, rfl⟩) rfl same known.stack known
      · refine .stays ⟨⟨rfl, rfl, rfl, rfl⟩, .inl ⟨rfl, rfl⟩, rfl, same, known.stack, ?_⟩
        intro value member
        rcases Array.mem_or_eq_of_mem_setIfInBounds member with member | new
        · rcases Array.mem_append.mp member with member | member
          · exact known.globals value member
          · cases (Array.mem_replicate.mp member).2
        · obtain rfl := Option.some.inj new
          exact known.top found

theorem enter {argCount id : UInt8}
    (callee : s.stack[s.stack.size - (argCount.toNat + 1)]? = some (.function id))
    (known : s.Known m.program)
    : Effect m.program (.call argCount) s
        (m.enter id argCount (s.stack.size - (argCount.toNat + 1)) s) := by
  have inTable := known.stack _ (Array.mem_of_getElem? callee)
  obtain ⟨function, found⟩ := Option.isSome_iff_exists.mp inTable
  simp only [Machine.enter, found]
  split
  · exact .fails rfl
  · rename_i arity
    split
    · exact .fails rfl
    · exact .enters rfl callee found (Decidable.of_not_not arity)

theorem ret (enough : s.base + 1 ≤ s.stack.size)
    : Effect m.program .ret s (Machine.ret s) := by
  obtain ⟨value, top⟩ := top_of_demand enough
  simp only [Machine.ret, top]
  split
  · rename_i bottom
    exact .halts rfl top bottom
  · rename_i frame caller
    exact .returns rfl top caller

theorem operate {op : Operator} (enough : s.base + 2 ≤ s.stack.size) (known : s.Known m.program)
    : Effect m.program (.operate op) s (m.operate op s) := by
  obtain ⟨right, top⟩ := top_of_demand (s := s) (by omega)
  have less : s.stack.pop.size = s.stack.size - 1 := Array.size_pop
  obtain ⟨left, second⟩ : ∃ left, s.stack.pop.back? = some left := by
    rw [Array.back?_eq_getElem?]
    exact ⟨_, Array.getElem?_eq_getElem (by omega)⟩
  have popped : ({ s with stack := s.stack.pop } : State σ).Known m.program :=
    ⟨known.pop, known.globals⟩
  have less' : s.stack.pop.pop.size = s.stack.size - 1 - 1 := Array.size_pop.trans (by rw [less])
  simp only [Machine.operate, top, Machine.operateOn, second]
  split
  · rename_i fault failed
    exact .fails (Operator.applyValues_fault failed)
  · rename_i value applied
    refine .push ⟨rfl, rfl, rfl, rfl⟩ rfl rfl ?_ ?_ ?_ ⟨popped.pop, known.globals⟩
      (Operator.applyValues_known applied)
    · simp only [less', Instruction.heightAfter]
      omega
    · simp only [less']
      omega
    · intro place low
      refine (Array.getElem?_pop).trans ((if_pos (by omega)).trans ?_)
      exact pop_below (by omega) place low

variable [Sink σ]

theorem callBuiltin {argCount : UInt8} {builtin : Builtin}
    (enough : s.base + (argCount.toNat + 1) ≤ s.stack.size) (known : s.Known m.program)
    : Effect m.program (.call argCount) s
        (m.callBuiltin builtin (s.stack.size - (argCount.toNat + 1)) s) := by
  unfold Machine.callBuiltin
  dsimp only
  split
  · rename_i fault _ failed
    exact .fails (Builtin.call_fault failed)
  · rename_i value _ called
    have size : (s.stack.shrink (s.stack.size - (argCount.toNat + 1))).size
        = s.stack.size - (argCount.toNat + 1) :=
      Array.size_shrink.trans (Nat.min_eq_left (by omega))
    refine .push ⟨rfl, rfl, rfl, rfl⟩ rfl rfl ?_ ?_ ?_ ⟨known.shrink _, known.globals⟩
      (Builtin.call_known called)
    · simp only [size, Instruction.heightAfter]
      omega
    · simp only [size]
      omega
    · intro place low
      exact getElem?_shrink (by omega)

theorem call {argCount : UInt8} (enough : s.base + (argCount.toNat + 1) ≤ s.stack.size)
    (known : s.Known m.program)
    : Effect m.program (.call argCount) s (m.call argCount s) := by
  have inside : s.stack.size - (argCount.toNat + 1) < s.stack.size := by omega
  have callee := Array.getElem?_eq_getElem inside
  unfold Machine.call
  rw [if_neg (by omega)]
  dsimp only
  split
  · rename_i missing
    rw [callee] at missing
    cases missing
  · rename_i id function
    exact enter function known
  · exact callBuiltin enough known
  · exact .fails rfl

/-- An instruction that finds the values that it takes above the base has one of the effects. -/
theorem apply {instruction : Instruction}
    (enough : s.base + instruction.demand ≤ s.stack.size)
    (names : instruction.KnownIn m.program) (known : s.Known m.program)
    : Effect m.program instruction s (m.apply instruction s) := by
  cases instruction with
  | push constant =>
      unfold Machine.apply
      dsimp only
      split
      · rename_i fault failed
        cases constant with
        | string index =>
            have inside : index.toNat < m.program.strings.size := names
            simp [Machine.constant, Array.getElem?_eq_getElem inside] at failed
        | _ => cases failed
      · rename_i value stands
        refine .push ⟨rfl, rfl, rfl, rfl⟩ rfl rfl rfl (Nat.le_trans (Nat.le_add_right _ _) enough)
          (fun _ _ => rfl) known ?_
        cases constant with
        | string index =>
            have inside : index.toNat < m.program.strings.size := names
            simp only [Machine.constant, Array.getElem?_eq_getElem inside] at stands
            obtain rfl := Except.ok.inj stands
            trivial
        | function id =>
            obtain rfl := Except.ok.inj stands
            exact names
        | _ =>
            obtain rfl := Except.ok.inj stands
            trivial
  | pop =>
      obtain ⟨top, found⟩ := top_of_demand enough
      simp only [Machine.apply, found]
      exact .forward (.inl ⟨rfl, rfl⟩) Array.size_pop (pop_below enough) known.pop known
  | jump when offset => exact jump enough known
  | access what slot => exact access enough known
  | call argCount => exact call enough known
  | ret => exact ret enough
  | operate op => exact operate enough known

end Effect

end StackScript

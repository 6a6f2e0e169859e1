import Mathlib.Data.List.Induction
import StackScript.Proofs.Evaluation.Layout
import StackScript.Proofs.Machine.Runs

/-! Where a run gets to if it has enough room. What single instructions do is stated for the
activations in which they are carried out; runs are put together from there on without a look
at the limits.
-/

namespace StackScript

variable {σ : Type} [Sink σ] {program : Program}

-----------------------------------------------------------------------------------------
-- Runs with enough room
-----------------------------------------------------------------------------------------

/-- The limits leave enough room. -/
structure Limits.Allow (limits : Limits) (room : Nat) : Prop where
  stack : room ≤ limits.maxStack
  frames : room ≤ limits.maxFrames

theorem Limits.Allow.mono {limits : Limits} {room less : Nat} (allow : limits.Allow room)
    (fewer : less ≤ room)
    : limits.Allow less :=
  ⟨Nat.le_trans fewer allow.stack, Nat.le_trans fewer allow.frames⟩

namespace Program

/-- A run that has enough room gets from one state to another. -/
def Reaches (program : Program) (s t : State σ) : Prop :=
  ∃ room : Nat, ∀ limits : Limits, limits.Allow room → Machine.Runs ⟨program, limits⟩ s t

/-- A run that has enough room fails for the given reason and leaves the given sink. -/
def Breaks (program : Program) (s : State σ) (fault : Fault) (sink : σ) : Prop :=
  ∃ room : Nat, ∀ limits : Limits, limits.Allow room
    → ∃ t after,
        Machine.Runs ⟨program, limits⟩ s t
        ∧ Machine.step ⟨program, limits⟩ t = (.failed fault, after)
        ∧ after.sink = sink

theorem Reaches.refl (s : State σ) : program.Reaches s s := ⟨0, fun _ _ => .refl⟩

theorem Reaches.trans {s t u : State σ} (first : program.Reaches s t)
    (second : program.Reaches t u)
    : program.Reaches s u := by
  obtain ⟨room, first⟩ := first
  obtain ⟨room', second⟩ := second
  refine ⟨max room room', fun limits allow => ?_⟩
  exact (first limits (allow.mono (Nat.le_max_left _ _))).trans
    (second limits (allow.mono (Nat.le_max_right _ _)))

theorem Reaches.breaks {s t : State σ} {fault : Fault} {sink : σ} (first : program.Reaches s t)
    (second : program.Breaks t fault sink)
    : program.Breaks s fault sink := by
  obtain ⟨room, first⟩ := first
  obtain ⟨room', second⟩ := second
  refine ⟨max room room', fun limits allow => ?_⟩
  obtain ⟨u, after, runs, failed, written⟩ := second limits (allow.mono (Nat.le_max_right _ _))
  exact ⟨u, after, (first limits (allow.mono (Nat.le_max_left _ _))).trans runs, failed, written⟩

end Program

-----------------------------------------------------------------------------------------
-- Instructions
-----------------------------------------------------------------------------------------

namespace Site

variable {site : Site} {ip : Nat} {globals : Array (Option Value)} {values : List Value}
  {sink : σ} {rest : List Instruction}

/-- An instruction that can be carried out with enough room. -/
theorem reaches_of_apply {instruction : Instruction} {t : State σ}
    (placed : program.CodeFrom site.function ip (instruction :: rest)) (room : Nat)
    (applied
      : ∀ limits : Limits, limits.Allow room
        → Machine.apply ⟨program, limits⟩ instruction
            (site.state (ip + instruction.length) globals values sink)
          = (.running, t))
    : program.Reaches (site.state ip globals values sink) t := by
  refine ⟨room, fun limits allow => .single ?_⟩
  have placed' : (Machine.mk program limits).program.CodeFrom
      (site.state ip globals values sink).function (site.state ip globals values sink).ip
      (instruction :: rest) :=
    placed
  rw [Machine.step_of_placed placed' rfl]
  exact applied limits allow

/-- An instruction that fails. -/
theorem breaks_of_apply {instruction : Instruction} {fault : Fault} {after : State σ}
    (placed : program.CodeFrom site.function ip (instruction :: rest))
    (applied
      : ∀ limits : Limits,
          Machine.apply ⟨program, limits⟩ instruction
            (site.state (ip + instruction.length) globals values sink)
          = (.failed fault, after))
    : program.Breaks (site.state ip globals values sink) fault after.sink := by
  refine ⟨0, fun limits _ => ⟨_, after, .refl, ?_, rfl⟩⟩
  have placed' : (Machine.mk program limits).program.CodeFrom
      (site.state ip globals values sink).function (site.state ip globals values sink).ip
      (instruction :: rest) :=
    placed
  rw [Machine.step_of_placed placed' rfl]
  exact applied limits

omit [Sink σ] in
theorem state_top (site : Site) (ip : Nat) (globals : Array (Option Value))
    (values : List Value) (value : Value) (sink : σ)
    : (site.state ip globals (values ++ [value]) sink).stack.back? = some value := by
  simp [state, ← List.append_assoc]

omit [Sink σ] in
theorem state_pop (site : Site) (ip : Nat) (globals : Array (Option Value))
    (values : List Value) (value : Value) (sink : σ)
    : (site.state ip globals (values ++ [value]) sink).stack.pop
      = (site.state ip globals values sink).stack := by
  simp [state, ← List.append_assoc]

omit [Sink σ] in
theorem state_shrink (site : Site) (ip : Nat) (globals : Array (Option Value))
    (values more : List Value) (sink : σ)
    : (site.state ip globals (values ++ more) sink).stack.shrink
        (site.below.length + values.length)
      = (site.state ip globals values sink).stack := by
  apply Array.toList_inj.mp
  rw [Array.toList_shrink]
  simp only [state]
  rw [← List.append_assoc, ← List.length_append, List.take_left]

omit [Sink σ] in
theorem push_state (site : Site) (ip : Nat) (globals : Array (Option Value))
    (values : List Value) (value : Value) (sink : σ) {limits : Limits}
    (allow : limits.Allow (site.below.length + values.length + 1))
    : Machine.push ⟨program, limits⟩ value (site.state ip globals values sink)
      = (.running, site.state ip globals (values ++ [value]) sink) := by
  have room : ¬ limits.maxStack ≤ (site.state ip globals values sink).stack.size := by
    have := allow.stack
    simp only [state, List.size_toArray, List.length_append]
    omega
  rw [Machine.push, if_neg room]
  simp [state]

theorem push {constant : Constant} {value : Value}
    (placed : program.CodeFrom site.function ip (.push constant :: rest))
    (means : ∀ limits, Machine.constant ⟨program, limits⟩ constant = .ok value)
    : program.Reaches (site.state ip globals values sink)
        (site.state (ip + (Instruction.push constant).length) globals (values ++ [value]) sink) := by
  refine reaches_of_apply placed (site.below.length + values.length + 1) fun limits allow => ?_
  simp only [Machine.apply, means]
  exact push_state site _ globals values value sink allow

theorem pop {value : Value} (placed : program.CodeFrom site.function ip (.pop :: rest))
    : program.Reaches (site.state ip globals (values ++ [value]) sink)
        (site.state (ip + 1) globals values sink) := by
  refine reaches_of_apply placed 0 fun limits _ => ?_
  simp only [Machine.apply, state_top, state_pop]
  rfl

/-- Taking several values off the stack. -/
theorem pops {more : List Value}
    (placed
      : program.CodeFrom site.function ip (List.replicate more.length .pop ++ rest))
    : program.Reaches (site.state ip globals (values ++ more) sink)
        (site.state (ip + more.length) globals values sink) := by
  induction more using List.reverseRecOn generalizing ip with
  | nil =>
      rw [List.append_nil]
      exact .refl _
  | append_singleton others value ih =>
      rw [List.length_append, List.length_singleton, List.replicate_succ, List.cons_append]
        at placed
      have first : program.Reaches
          (site.state ip globals (values ++ others ++ [value]) sink)
          (site.state (ip + 1) globals (values ++ others) sink) :=
        pop placed
      rw [List.append_assoc] at first
      have behind := ih placed.tail
      rw [show Instruction.pop.length = 1 from rfl] at behind
      rw [List.length_append, List.length_singleton, Nat.add_comm others.length, ← Nat.add_assoc]
      exact first.trans behind

theorem jump {offset : UInt16}
    (placed : program.CodeFrom site.function ip (.jump .always offset :: rest))
    : program.Reaches (site.state ip globals values sink)
        (site.state (ip + 3 + offset.toNat) globals values sink) :=
  reaches_of_apply placed 0 fun _ _ => rfl

/-- A test goes on behind the jump for a truthy value, and at the target for a falsy one. -/
theorem test {offset : UInt16} {value : Value}
    (placed : program.CodeFrom site.function ip (.jump .popFalsy offset :: rest))
    : program.Reaches (site.state ip globals (values ++ [value]) sink)
        (site.state (if value.isTruthy then ip + 3 else ip + 3 + offset.toNat) globals values
          sink) := by
  refine reaches_of_apply placed 0 fun limits _ => ?_
  simp only [Machine.apply, Machine.jump, state_top, state_pop, State.jumpIf]
  cases value.isTruthy <;> rfl

omit [Sink σ] in
theorem jump_skip {op : LogicalOperator} {offset : UInt16} {value : Value} {s : State σ}
    (top : s.stack.back? = some value)
    : Machine.jump op.skip offset s = s.jumpIf (op.decides value) offset := by
  cases op <;> simp only [LogicalOperator.skip, Machine.jump, top] <;> rfl

/-- A logical operator skips its right operand if the left one decides. -/
theorem skip {op : LogicalOperator} {offset : UInt16} {value : Value}
    (placed : program.CodeFrom site.function ip (.jump op.skip offset :: rest))
    : program.Reaches (site.state ip globals (values ++ [value]) sink)
        (site.state (if op.decides value then ip + 3 + offset.toNat else ip + 3) globals
          (values ++ [value]) sink) := by
  refine reaches_of_apply placed 0 fun limits _ => ?_
  refine Eq.trans (jump_skip (state_top ..)) ?_
  unfold State.jumpIf
  cases op.decides value <;> rfl

theorem getLocal {slot : UInt8} {value : Value}
    (placed : program.CodeFrom site.function ip (.access .getLocal slot :: rest))
    (found : values[slot.toNat]? = some value)
    : program.Reaches (site.state ip globals values sink)
        (site.state (ip + 2) globals (values ++ [value]) sink) := by
  refine reaches_of_apply placed (site.below.length + values.length + 1) fun limits allow => ?_
  have place : (site.below ++ values)[site.below.length + slot.toNat]? = some value := by
    rw [List.getElem?_append_right (Nat.le_add_right _ _), Nat.add_sub_cancel_left]
    exact found
  have located : (site.state (ip + 2) globals values sink).stack[
      (site.state (ip + 2) globals values sink).base + slot.toNat]? = some value := by
    simpa only [state, List.getElem?_toArray] using place
  simp only [Machine.apply, Machine.access]
  rw [show (Instruction.access .getLocal slot).length = 2 from rfl, located]
  exact push_state site (ip + 2) globals values value sink allow

theorem setLocal {slot : UInt8} {value : Value}
    (placed : program.CodeFrom site.function ip (.access .setLocal slot :: rest))
    (inside : slot.toNat < values.length)
    : program.Reaches (site.state ip globals (values ++ [value]) sink)
        (site.state (ip + 2) globals (values.set slot.toNat value ++ [value]) sink) := by
  refine reaches_of_apply placed 0 fun limits _ => ?_
  have room : site.below.length + slot.toNat < (site.below ++ (values ++ [value])).length := by
    simp only [List.length_append]
    omega
  have set : (site.below ++ (values ++ [value])).set (site.below.length + slot.toNat) value
      = site.below ++ (values.set slot.toNat value ++ [value]) := by
    rw [List.set_append_right _ _ (Nat.le_add_right _ _), Nat.add_sub_cancel_left,
      List.set_append_left _ _ inside]
  simp only [Machine.apply, Machine.access, state_top]
  simp only [state, List.size_toArray, if_pos room, List.setIfInBounds_toArray, set]
  rfl

theorem getGlobal {slot : UInt8} {value : Value}
    (placed : program.CodeFrom site.function ip (.access .getGlobal slot :: rest))
    (found : globals[slot.toNat]?.join = some value)
    : program.Reaches (site.state ip globals values sink)
        (site.state (ip + 2) globals (values ++ [value]) sink) := by
  refine reaches_of_apply placed (site.below.length + values.length + 1) fun limits allow => ?_
  have stored : (site.state (ip + 2) globals values sink).globals[slot.toNat]?.join = some value :=
    found
  simp only [Machine.apply, Machine.access]
  rw [show (Instruction.access .getGlobal slot).length = 2 from rfl, stored]
  exact push_state site (ip + 2) globals values value sink allow

theorem getGlobal_unset {slot : UInt8}
    (placed : program.CodeFrom site.function ip (.access .getGlobal slot :: rest))
    (unset : globals[slot.toNat]?.join = none)
    : program.Breaks (site.state ip globals values sink) (.unsetGlobal slot) sink := by
  have fails : ∀ limits : Limits,
      Machine.apply ⟨program, limits⟩ (.access .getGlobal slot)
          (site.state (ip + 2) globals values sink)
        = (.failed (.unsetGlobal slot), site.state (ip + 2) globals values sink) := by
    intro limits
    simp only [Machine.apply, Machine.access]
    simp only [state, unset]
    rfl
  exact breaks_of_apply placed fails

theorem setGlobal {slot : UInt8} {value : Value}
    (placed : program.CodeFrom site.function ip (.access .setGlobal slot :: rest))
    : program.Reaches (site.state ip globals (values ++ [value]) sink)
        (site.state (ip + 2)
          (if slot.toNat ≤ reservedSlots then globals
            else State.storeGlobal globals slot.toNat value)
          (values ++ [value]) sink) := by
  refine reaches_of_apply placed 0 fun limits _ => ?_
  simp only [Machine.apply, Machine.access, state_top]
  split <;> rfl

theorem operate {op : Operator} {left right value : Value}
    (placed : program.CodeFrom site.function ip (.operate op :: rest))
    (applied : op.applyValues left right = .ok value)
    : program.Reaches (site.state ip globals (values ++ [left] ++ [right]) sink)
        (site.state (ip + 1) globals (values ++ [value]) sink) := by
  refine reaches_of_apply placed (site.below.length + values.length + 1) fun limits allow => ?_
  simp only [Machine.apply, Machine.operate, state_top, state_pop, Machine.operateOn, applied]
  exact push_state site (ip + 1) globals values value sink allow

theorem operate_fault {op : Operator} {left right : Value} {fault : Fault}
    (placed : program.CodeFrom site.function ip (.operate op :: rest))
    (failed : op.applyValues left right = .error fault)
    : program.Breaks (site.state ip globals (values ++ [left] ++ [right]) sink) fault sink := by
  have fails : ∀ limits : Limits,
      Machine.apply ⟨program, limits⟩ (.operate op)
          (site.state (ip + 1) globals (values ++ [left] ++ [right]) sink)
        = (.failed fault, site.state (ip + 1) globals values sink) := by
    intro limits
    simp only [Machine.apply, Machine.operate, state_top, state_pop, Machine.operateOn, failed]
    rfl
  exact breaks_of_apply placed fails

-----------------------------------------------------------------------------------------
-- Calls
-----------------------------------------------------------------------------------------

/-- The activation of a function that is called with some values below it, and that returns to
the given offset.
-/
def callee (site : Site) (values : List Value) (id : UInt8) (resume : Nat) : Site where
  function := id.toNat
  below := site.below ++ (values ++ [.function id])
  callers := site.callers.push ⟨site.function, resume, site.below.length⟩

/-- The called value lies below the arguments. -/
theorem call_state (site : Site) (ip : Nat) (globals : Array (Option Value))
    (values : List Value) (function : Value) {args : List Value} (sink : σ) (limits : Limits)
    (few : args.length ≤ 255)
    : Machine.call ⟨program, limits⟩ (UInt8.ofNat args.length)
          (site.state ip globals (values ++ function :: args) sink)
        = match function with
          | .function id =>
              Machine.enter ⟨program, limits⟩ id (UInt8.ofNat args.length)
                (site.below.length + values.length)
                (site.state ip globals (values ++ function :: args) sink)
          | .native builtin _ =>
              Machine.callBuiltin ⟨program, limits⟩ builtin (site.below.length + values.length)
                (site.state ip globals (values ++ function :: args) sink)
          | other =>
              (site.state ip globals (values ++ function :: args) sink).fail
                (.notCallable other.tag) := by
  have count : (UInt8.ofNat args.length).toNat = args.length :=
    UInt8.toNat_ofNat_of_lt (Nat.lt_succ_of_le few)
  have size : (site.state ip globals (values ++ function :: args) sink).stack.size
      = site.below.length + values.length + (args.length + 1) := by
    simp [state, Nat.add_assoc]
  have found
      : (site.state ip globals (values ++ function :: args) sink).stack[
          site.below.length + values.length]?
        = some function := by
    simp [state, ← List.append_assoc]
  rw [Machine.call, count, size, if_neg (by omega)]
  simp only [Nat.add_sub_cancel, found]
  cases function <;> rfl

omit [Sink σ] in
theorem state_args (site : Site) (ip : Nat) (globals : Array (Option Value))
    (values : List Value) (function : Value) (args : List Value) (sink : σ)
    : ((site.state ip globals (values ++ function :: args) sink).stack.extract
        (site.below.length + values.length + 1)
        (site.state ip globals (values ++ function :: args) sink).stack.size).toList
      = args := by
  have split : site.below ++ (values ++ function :: args)
      = (site.below ++ values ++ [function]) ++ args := by
    simp
  have front : site.below.length + values.length + 1
      = (site.below ++ values ++ [function]).length := by
    simp [Nat.add_assoc]
  simp only [state, split, front, Array.toList_extract, List.size_toArray,
    List.extract_eq_take_drop]
  rw [List.drop_left, List.length_append, Nat.add_sub_cancel_left, List.take_length]

theorem call_builtin {builtin : Builtin} {identity : Nat} {args : List Value} {value : Value}
    {written : σ} (few : args.length ≤ 255)
    (placed : program.CodeFrom site.function ip (.call (UInt8.ofNat args.length) :: rest))
    (called : builtin.call args sink = (.ok value, written))
    : program.Reaches
        (site.state ip globals (values ++ .native builtin identity :: args) sink)
        (site.state (ip + 2) globals (values ++ [value]) written) := by
  refine reaches_of_apply placed (site.below.length + values.length + 1) fun limits allow => ?_
  refine Eq.trans (call_state site (ip + 2) globals values _ sink limits few) ?_
  have same : (site.state (ip + 2) globals (values ++ .native builtin identity :: args) sink).sink
      = sink :=
    rfl
  simp only [Machine.callBuiltin, state_args, same, called, state_shrink]
  exact push_state site (ip + 2) globals values value written allow

theorem call_builtin_fault {builtin : Builtin} {identity : Nat} {args : List Value}
    {fault : Fault} {written : σ} (few : args.length ≤ 255)
    (placed : program.CodeFrom site.function ip (.call (UInt8.ofNat args.length) :: rest))
    (called : builtin.call args sink = (.error fault, written))
    : program.Breaks
        (site.state ip globals (values ++ .native builtin identity :: args) sink) fault
        written := by
  have same : (site.state (ip + 2) globals (values ++ .native builtin identity :: args) sink).sink
      = sink :=
    rfl
  have fails : ∀ limits : Limits,
      Machine.apply ⟨program, limits⟩ (.call (UInt8.ofNat args.length))
          (site.state (ip + 2) globals (values ++ .native builtin identity :: args) sink)
        = (.failed fault,
            { site.state (ip + 2) globals (values ++ .native builtin identity :: args) sink with
              stack :=
                (site.state (ip + 2) globals (values ++ .native builtin identity :: args)
                  sink).stack.shrink (site.below.length + values.length + 1)
              sink := written }) := by
    intro limits
    refine Eq.trans (call_state site (ip + 2) globals values _ sink limits few) ?_
    simp only [Machine.callBuiltin, state_args, same, called, State.fail]
  exact breaks_of_apply placed fails

theorem call_other {function : Value} {args : List Value} (few : args.length ≤ 255)
    (placed : program.CodeFrom site.function ip (.call (UInt8.ofNat args.length) :: rest))
    (noFunction : ∀ id, function ≠ .function id)
    (noBuiltin : ∀ builtin identity, function ≠ .native builtin identity)
    : program.Breaks (site.state ip globals (values ++ function :: args) sink)
        (.notCallable function.tag) sink := by
  have fails : ∀ limits : Limits,
      Machine.apply ⟨program, limits⟩ (.call (UInt8.ofNat args.length))
          (site.state (ip + 2) globals (values ++ function :: args) sink)
        = (.failed (.notCallable function.tag),
            site.state (ip + 2) globals (values ++ function :: args) sink) := by
    intro limits
    refine Eq.trans (call_state site (ip + 2) globals values function sink limits few) ?_
    cases function with
    | function id => exact absurd rfl (noFunction id)
    | native builtin identity => exact absurd rfl (noBuiltin builtin identity)
    | _ => rfl
  exact breaks_of_apply placed fails

/-- A function that gets as many arguments as it has parameters is entered. -/
theorem call_function {id : UInt8} {function : Function} {args : List Value}
    (few : args.length ≤ 255)
    (placed : program.CodeFrom site.function ip (.call (UInt8.ofNat args.length) :: rest))
    (found : program.function? id.toNat = some function)
    (arity : function.arity = UInt8.ofNat args.length)
    : program.Reaches (site.state ip globals (values ++ .function id :: args) sink)
        ((site.callee values id (ip + 2)).state 0 globals args sink) := by
  refine reaches_of_apply placed (site.callers.size + 2) fun limits allow => ?_
  refine Eq.trans (call_state site (ip + 2) globals values _ sink limits few) ?_
  have room : ¬ limits.maxFrames
      ≤ (site.state (ip + 2) globals (values ++ .function id :: args) sink).callers.size + 1 :=
    Nat.not_le.mpr allow.frames
  simp only [Machine.enter, found, arity, ne_eq, not_true_eq_false, if_false, if_neg room]
  simp [state, callee, Nat.add_assoc]

theorem call_arity {id : UInt8} {function : Function} {args : List Value}
    (few : args.length ≤ 255)
    (placed : program.CodeFrom site.function ip (.call (UInt8.ofNat args.length) :: rest))
    (found : program.function? id.toNat = some function)
    (arity : function.arity ≠ UInt8.ofNat args.length)
    : program.Breaks (site.state ip globals (values ++ .function id :: args) sink)
        (.arityMismatch id function.arity (UInt8.ofNat args.length)) sink := by
  have fails : ∀ limits : Limits,
      Machine.apply ⟨program, limits⟩ (.call (UInt8.ofNat args.length))
          (site.state (ip + 2) globals (values ++ .function id :: args) sink)
        = (.failed (.arityMismatch id function.arity (UInt8.ofNat args.length)),
            site.state (ip + 2) globals (values ++ .function id :: args) sink) := by
    intro limits
    refine Eq.trans (call_state site (ip + 2) globals values _ sink limits few) ?_
    simp only [Machine.enter, found, ne_eq, arity, not_false_eq_true, if_true, State.fail]
  exact breaks_of_apply placed fails

theorem call_missing {id : UInt8} {args : List Value} (few : args.length ≤ 255)
    (placed : program.CodeFrom site.function ip (.call (UInt8.ofNat args.length) :: rest))
    (missing : program.function? id.toNat = none)
    : program.Breaks (site.state ip globals (values ++ .function id :: args) sink)
        (.noFunction id.toNat) sink := by
  have fails : ∀ limits : Limits,
      Machine.apply ⟨program, limits⟩ (.call (UInt8.ofNat args.length))
          (site.state (ip + 2) globals (values ++ .function id :: args) sink)
        = (.failed (.noFunction id.toNat),
            site.state (ip + 2) globals (values ++ .function id :: args) sink) := by
    intro limits
    refine Eq.trans (call_state site (ip + 2) globals values _ sink limits few) ?_
    simp only [Machine.enter, missing, State.fail]
  exact breaks_of_apply placed fails

/-- A return leads behind the call, with the value in place of the function and all above. -/
theorem ret {id : UInt8} {resume : Nat} {locals : List Value} {value : Value}
    (placed : program.CodeFrom (site.callee values id resume).function ip (.ret :: rest))
    : program.Reaches
        ((site.callee values id resume).state ip globals (locals ++ [value]) sink)
        (site.state resume globals (values ++ [value]) sink) := by
  refine reaches_of_apply placed 0 fun limits _ => ?_
  have caller : ((site.callee values id resume).state (ip + 1) globals (locals ++ [value])
      sink).callers.back? = some ⟨site.function, resume, site.below.length⟩ := by
    simp [state, callee]
  have others : ((site.callee values id resume).state (ip + 1) globals (locals ++ [value])
      sink).callers.pop = site.callers := by
    simp [state, callee]
  have lower : ((site.callee values id resume).state (ip + 1) globals locals sink).stack.shrink
      (((site.callee values id resume).state (ip + 1) globals (locals ++ [value]) sink).base - 1)
      = (site.state resume globals values sink).stack := by
    have lowest : ((site.callee values id resume).state (ip + 1) globals (locals ++ [value])
        sink).base - 1 = site.below.length + values.length := by
      simp [state, callee, ← Nat.add_assoc]
    rw [lowest, ← state_shrink site resume globals values (.function id :: locals) sink]
    simp [state, callee]
  simp only [Machine.apply, Machine.ret, state_top, state_pop]
  rw [show Instruction.ret.length = 1 from rfl, caller]
  simp only [lower, others]
  simp [state]

end Site

end StackScript

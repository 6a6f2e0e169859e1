import StackScript.Machine.Builtin
import StackScript.Machine.State

/-! One step of a run: the next instruction is decoded and carried out. A step that fails
leaves what it had done by then, so that a debugger can look at it and go on.
-/

namespace StackScript

variable {σ : Type}

namespace State

/-- Ends the run with a result. -/
def halt (s : State σ) (value : Value) : Outcome × State σ :=
  (.halted value, { s with result := some value })

/-- Fails and leaves the state as it is. -/
def fail (s : State σ) (fault : Fault) : Outcome × State σ :=
  (.failed fault, s)

/-- Goes on behind a jump that is taken or not. -/
def jumpIf (s : State σ) (taken : Bool) (offset : UInt16) : Outcome × State σ :=
  (.running, if taken then { s with ip := s.ip + offset.toNat } else s)

/-- The globals with a value in the given slot, and with as many slots as that needs. -/
def storeGlobal (globals : Array (Option Value)) (slot : Nat) (value : Value)
    : Array (Option Value) :=
  (globals ++ Array.replicate (slot + 1 - globals.size) none).setIfInBounds slot (some value)

end State

namespace Machine

/-- Puts a value on the stack. -/
def push (m : Machine) (value : Value) (s : State σ) : Outcome × State σ :=
  if m.limits.maxStack ≤ s.stack.size then s.fail (.stackOverflow m.limits.maxStack)
  else (.running, { s with stack := s.stack.push value })

/-- The value that a constant stands for in the program. -/
def constant (m : Machine) : Constant → Except Fault Value
  | .number value => .ok (.number value)
  | .long value => .ok (.long value)
  | .boolean value => .ok (.boolean value)
  | .string index =>
      match m.program.strings[index.toNat]? with
      | some text => .ok (.string text)
      | none => .error (.noString index)
  | .function id => .ok (.function id)
  | .null => .ok .null

/-- Carries out a jump. -/
def jump (when : Jump) (offset : UInt16) (s : State σ) : Outcome × State σ :=
  match when with
  | .always => s.jumpIf true offset
  | .popFalsy =>
      match s.stack.back? with
      | none => s.fail .stackUnderflow
      | some top => { s with stack := s.stack.pop }.jumpIf (!top.isTruthy) offset
  | .keepTruthy =>
      match s.stack.back? with
      | none => s.fail .stackUnderflow
      | some top => s.jumpIf top.isTruthy offset
  | .keepFalsy =>
      match s.stack.back? with
      | none => s.fail .stackUnderflow
      | some top => s.jumpIf (!top.isTruthy) offset

/-- Reads or writes a variable. Writes to reserved globals are ignored. -/
def access (m : Machine) (what : Access) (slot : UInt8) (s : State σ) : Outcome × State σ :=
  match what with
  | .getLocal =>
      match s.stack[s.base + slot.toNat]? with
      | none => s.fail (.noLocal slot)
      | some value => m.push value s
  | .setLocal =>
      match s.stack.back? with
      | none => s.fail .stackUnderflow
      | some top =>
          if s.base + slot.toNat < s.stack.size then
            (.running, { s with stack := s.stack.setIfInBounds (s.base + slot.toNat) top })
          else s.fail (.noLocal slot)
  | .getGlobal =>
      match s.globals[slot.toNat]?.join with
      | none => s.fail (.unsetGlobal slot)
      | some value => m.push value s
  | .setGlobal =>
      match s.stack.back? with
      | none => s.fail .stackUnderflow
      | some top =>
          if slot.toNat ≤ reservedSlots then (.running, s)
          else (.running, { s with globals := State.storeGlobal s.globals slot.toNat top })

/-- Enters a function whose value stands at the given place, below its arguments. -/
def enter (m : Machine) (id argCount : UInt8) (place : Nat) (s : State σ)
    : Outcome × State σ :=
  match m.program.function? id.toNat with
  | none => s.fail (.noFunction id.toNat)
  | some function =>
      if function.arity ≠ argCount then s.fail (.arityMismatch id function.arity argCount)
      else if m.limits.maxFrames ≤ s.callers.size + 1 then
        s.fail (.tooManyCalls m.limits.maxFrames)
      else
        (.running,
          { s with
            callers := s.callers.push ⟨s.function, s.ip, s.base⟩
            base := place + 1
            ip := 0
            function := id.toNat })

variable [Sink σ]

/-- Calls a built-in function that stands at the given place, below its arguments. The
arguments are gone even if the call fails.
-/
def callBuiltin (m : Machine) (builtin : Builtin) (place : Nat) (s : State σ)
    : Outcome × State σ :=
  let args := (s.stack.extract (place + 1) s.stack.size).toList
  match builtin.call args s.sink with
  | (.error fault, sink) =>
      { s with stack := s.stack.shrink (place + 1), sink := sink }.fail fault
  | (.ok value, sink) => m.push value { s with stack := s.stack.shrink place, sink := sink }

/-- Calls the value below the arguments. -/
def call (m : Machine) (argCount : UInt8) (s : State σ) : Outcome × State σ :=
  if s.stack.size < argCount.toNat + 1 then s.fail .stackUnderflow
  else
    let place := s.stack.size - (argCount.toNat + 1)
    match s.stack[place]? with
    | none => s.fail .stackUnderflow
    | some (.function id) => m.enter id argCount place s
    | some (.native builtin _) => m.callBuiltin builtin place s
    | some other => s.fail (.notCallable other.tag)

omit [Sink σ] in
/-- Returns the value on top to the latest caller, or ends the run if there is none. The
function and all that stands above it give way to the value.
-/
def ret (s : State σ) : Outcome × State σ :=
  match s.stack.back? with
  | none => s.fail .stackUnderflow
  | some value =>
      match s.callers.back? with
      | none => s.halt value
      | some frame =>
          (.running,
            { s with
              stack := (s.stack.pop.shrink (s.base - 1)).push value
              callers := s.callers.pop
              ip := frame.ip
              base := frame.base
              function := frame.function })

omit [Sink σ] in
/-- Replaces the value on top, as the left operand, by the result of an operator. -/
def operateOn (m : Machine) (op : Operator) (right : Value) (s : State σ)
    : Outcome × State σ :=
  match s.stack.back? with
  | none => s.fail .stackUnderflow
  | some left =>
      match op.applyValues left right with
      | .error fault => { s with stack := s.stack.pop }.fail fault
      | .ok value => m.push value { s with stack := s.stack.pop }

omit [Sink σ] in
/-- Replaces the two values on top by the result of an operator. -/
def operate (m : Machine) (op : Operator) (s : State σ) : Outcome × State σ :=
  match s.stack.back? with
  | none => s.fail .stackUnderflow
  | some right => m.operateOn op right { s with stack := s.stack.pop }

/-- Carries out an instruction behind which the state already stands. -/
def apply (m : Machine) (instruction : Instruction) (s : State σ) : Outcome × State σ :=
  match instruction with
  | .push value =>
      match m.constant value with
      | .error fault => s.fail fault
      | .ok value => m.push value s
  | .pop =>
      match s.stack.back? with
      | none => s.fail .stackUnderflow
      | some _ => (.running, { s with stack := s.stack.pop })
  | .jump when offset => jump when offset s
  | .access what slot => m.access what slot s
  | .call argCount => m.call argCount s
  | .ret => ret s
  | .operate op => m.operate op s

/-- One step. A run that has its result gives it again and does nothing; the end of the main
code gives null.
-/
def step (m : Machine) (s : State σ) : Outcome × State σ :=
  match s.result with
  | some value => (.halted value, s)
  | none =>
      match m.program.code? s.function with
      | none => s.fail (.noFunction s.function)
      | some code =>
          if code.size ≤ s.ip then
            if s.function = 0 then s.halt .null else s.fail (.ranPastEnd s.function)
          else
            match Instruction.decode code s.ip with
            | .error error => s.fail (.malformed error)
            | .ok instruction => m.apply instruction { s with ip := s.ip + instruction.length }

end Machine

end StackScript

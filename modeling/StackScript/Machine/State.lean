import StackScript.Bytecode.Program
import StackScript.Machine.Fault

/-! The machine that runs programs, and what changes while it runs. Before a call the stack
holds the function and its arguments; in the frame of the call the base is the place of the
first argument, so that parameters are the first locals, and the function stands just below.
-/

namespace StackScript

/-- How much a run may use. -/
structure Limits where
  maxStack : Nat
  maxFrames : Nat
deriving DecidableEq, Repr, Inhabited

namespace Limits

/-- The limits of an ordinary run. -/
def default : Limits := ⟨65536, 4096⟩

end Limits

/-- A program to run and the limits of its run. -/
structure Machine where
  program : Program
  limits : Limits
deriving DecidableEq, Repr, Inhabited

/-- Where a caller goes on when the function that it called returns. -/
structure Frame where
  function : Nat
  ip : Nat
  base : Nat
deriving DecidableEq, Repr, Inhabited

/-- A run between two instructions. -/
structure State (σ : Type) where
  /-- The offset of the next instruction. -/
  ip : Nat
  /-- The place on the stack of the first local. -/
  base : Nat
  /-- The number of the code that is running. -/
  function : Nat
  globals : Array (Option Value)
  stack : Array Value
  /-- The suspended callers, the latest last. -/
  callers : Array Frame
  /-- The result, once there is one. -/
  result : Option Value
  /-- Where output goes. -/
  sink : σ
deriving Repr

namespace State

variable {σ : Type}

/-- The globals at the start: the built-in functions in the reserved slots, each with its slot
as its identity, and slots without a value.
-/
def initialGlobals (count : Nat) : Array (Option Value) :=
  #[none, some (.native .emit 1), some (.native .typeOf 2)]
    ++ Array.replicate (count - (reservedSlots + 1)) none

/-- The start of a run. -/
def initial (program : Program) (sink : σ) : State σ where
  ip := 0
  base := 0
  function := 0
  globals := initialGlobals program.globalCount
  stack := #[]
  callers := #[]
  result := none
  sink := sink

/-- The frame below all callers, where the run itself started. -/
def bottom : Frame := ⟨0, 0, 0⟩

/-- The frames of the run: the one in which it started, then the suspended callers. -/
def frames (s : State σ) : List Frame :=
  bottom :: s.callers.toList

/-- The run has its result. -/
def isHalted (s : State σ) : Bool :=
  s.result.isSome

end State

/-- How a step ends. -/
inductive Outcome
  | running
  | halted (value : Value)
  | failed (fault : Fault)
deriving DecidableEq, Repr

end StackScript

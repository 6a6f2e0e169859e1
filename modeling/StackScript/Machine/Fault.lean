import StackScript.Bytecode.Instruction
import StackScript.Machine.Value

/-! Why an instruction cannot be carried out. -/

namespace StackScript

/-- What stops a program. The faults that name a missing table entry, a missing operand, a
missing slot or malformed code cannot be caused by a script, only by code from elsewhere.
-/
inductive Fault
  | unsetGlobal (slot : UInt8)
  | notCallable (tag : Tag)
  | arityMismatch (id : UInt8) (expected found : UInt8)
  | operandTypes (op : Operator) (left right : Tag)
  | malformed (error : DecodeError)
  | noFunction (id : Nat)
  | noString (index : UInt16)
  | noLocal (slot : UInt8)
  | stackUnderflow
  | stackOverflow (limit : Nat)
  | tooManyCalls (limit : Nat)
  | ranPastEnd (id : Nat)
  | argumentCount (builtin : Builtin) (found : Nat)
  | output (reason : String)
deriving DecidableEq, Repr

namespace Fault

/-- The fault as one sentence. -/
def message : Fault → String
  | .unsetGlobal slot => "global not initialized (slot " ++ toString slot.toNat ++ ")"
  | .notCallable tag => "attempted to call non-function (" ++ tag.name ++ ")"
  | .arityMismatch id expected found =>
      "function #" ++ toString id.toNat ++ " expects " ++ toString expected.toNat
        ++ " arguments, got " ++ toString found.toNat
  | .operandTypes op left right =>
      "cannot apply " ++ op.mnemonic ++ " to " ++ left.name ++ " and " ++ right.name
  | .malformed error => error.message
  | .noFunction id => "no function #" ++ toString id ++ " in the function table"
  | .noString index => "no string #" ++ toString index.toNat ++ " in the string table"
  | .noLocal slot => "local slot " ++ toString slot.toNat ++ " is outside the operand stack"
  | .stackUnderflow => "operand stack underflow"
  | .stackOverflow limit => "operand stack overflow (limit " ++ toString limit ++ ")"
  | .tooManyCalls limit => "call depth exceeded (limit " ++ toString limit ++ ")"
  | .ranPastEnd id => "function #" ++ toString id ++ " ran past the end of its code"
  | .argumentCount builtin found =>
      builtin.name ++ ": expects 1 argument, got " ++ toString found
  | .output reason => "output error: " ++ reason

end Fault

end StackScript

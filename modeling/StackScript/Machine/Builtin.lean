import StackScript.Binary64.Rounding
import StackScript.Machine.Fault
import StackScript.Machine.Sink

/-! What the operators and the built-in functions compute. -/

namespace StackScript

namespace Operator

/-- The result of the operator on two numbers. -/
def apply (op : Operator) (left right : Binary64) : Value :=
  match op with
  | .add => .number (left.add right)
  | .subtract => .number (left.subtract right)
  | .multiply => .number (left.multiply right)
  | .divide => .number (left.divide right)
  | .remainder => .number (left.remainder right)
  | .equal => .boolean (left.equal right)
  | .notEqual => .boolean (!left.equal right)
  | .less => .boolean (left.less right)
  | .lessOrEqual => .boolean (left.lessOrEqual right)
  | .greater => .boolean (right.less left)
  | .greaterOrEqual => .boolean (right.lessOrEqual left)

/-- The result of the operator on two values, which must be numbers. -/
def applyValues (op : Operator) (left right : Value) : Except Fault Value :=
  match left, right with
  | .number a, .number b => .ok (op.apply a b)
  | left, right => .error (.operandTypes op left.tag right.tag)

end Operator

namespace Builtin

variable {σ : Type} [Sink σ]

/-- Writes each value on a line of its own, up to the first that the sink refuses. -/
def writeLines (sink : σ) : List Value → σ × Option String
  | [] => (sink, none)
  | value :: rest =>
      match Sink.write sink (value.display ++ "\n") with
      | (sink, none) => writeLines sink rest
      | (sink, some reason) => (sink, some reason)

/-- Calls a built-in function. -/
def call (builtin : Builtin) (args : List Value) (sink : σ) : Except Fault Value × σ :=
  match builtin with
  | .emit =>
      match writeLines sink args with
      | (sink, none) => (.ok .null, sink)
      | (sink, some reason) => (.error (.output reason), sink)
  | .typeOf =>
      match args with
      | [value] => (.ok (.string value.tag.name), sink)
      | args => (.error (.argumentCount .typeOf args.length), sink)

end Builtin

end StackScript

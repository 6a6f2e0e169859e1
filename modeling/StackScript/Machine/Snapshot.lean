import StackScript.Json.Basic
import StackScript.Machine.State

/-! The JSON form of a run between two instructions. Built-in functions have no JSON form of
their own and are all shown by the same placeholder.
-/

namespace StackScript

/-- What stands for a built-in function. -/
def nativePlaceholder : String := "<NATIVE FUNCTION>"

namespace Value

/-- The JSON form of what the value holds. -/
def content : Value → Json
  | .number value => .number value
  | .long value => .int value.toInt
  | .string text => .string text
  | .boolean value => .bool value
  | .null => .null
  | .function id => .nat id.toNat
  | .native _ _ => .string nativePlaceholder

/-- The JSON form of the value: its kind and what it holds. -/
def snapshot (value : Value) : Json :=
  .object [("type", .string value.tag.name), ("v", value.content)]

end Value

namespace Frame

/-- The JSON form of a frame. -/
def snapshot (frame : Frame) : Json :=
  .object [("function", .nat frame.function), ("ip", .nat frame.ip), ("bp", .nat frame.base)]

end Frame

namespace State

variable {σ : Type}

/-- The JSON form of the run. Globals without a value are null. -/
def snapshot (s : State σ) : Json :=
  .object
    [("ip", .nat s.ip), ("bp", .nat s.base), ("function", .nat s.function),
      ("stack", .array (s.stack.toList.map Value.snapshot)),
      ("globals", .array (s.globals.toList.map (Json.ofOption Value.snapshot))),
      ("frames", .array (s.frames.map Frame.snapshot)),
      ("halted", .bool s.isHalted)]

end State

end StackScript

import StackScript.Binary64.DecimalText
import StackScript.Bytecode.Opcode

/-! The values that programs compute with. -/

namespace StackScript

/-- The functions that every program can call. -/
inductive Builtin
  /-- Writes each argument on a line. -/
  | emit
  /-- Names the kind of its argument. -/
  | typeOf
deriving DecidableEq, Repr, Inhabited

namespace Builtin

/-- The name of the global that holds the function. -/
def name : Builtin → String
  | .emit => "$emit"
  | .typeOf => "$typeof"

end Builtin

/-- A value. A built-in function has an identity, by which it is told from others of its
kind.
-/
inductive Value
  | number (value : Binary64)
  | long (value : Int64)
  | string (text : String)
  | boolean (value : Bool)
  | null
  | function (id : UInt8)
  | native (builtin : Builtin) (identity : Nat)
deriving DecidableEq, Repr, Inhabited

namespace Value

/-- The kind of the value. -/
def tag : Value → Tag
  | .number _ => .number
  | .long _ => .long
  | .string _ => .string
  | .boolean _ => .boolean
  | .null => .null
  | .function _ => .function
  | .native _ _ => .native

/-- Null, false, the zeros and the empty string are falsy; a NaN is truthy. -/
def isTruthy : Value → Bool
  | .null => false
  | .boolean value => value
  | .number value => !value.isZero
  | .long value => value != 0
  | .string text => text != ""
  | .function _ => true
  | .native _ _ => true

/-- Equality as a host sees it: numbers by value, so that a NaN differs from itself and the
zeros are equal, and built-in functions by identity.
-/
def equal : Value → Value → Bool
  | .number a, .number b => a.equal b
  | .long a, .long b => a == b
  | .string a, .string b => a == b
  | .boolean a, .boolean b => a == b
  | .null, .null => true
  | .function a, .function b => a == b
  | .native _ a, .native _ b => a == b
  | _, _ => false

/-- The style of numbers as values. -/
def numberStyle : Binary64.DecimalStyle :=
  { Binary64.plain with infinite := "Infinity" }

/-- The text that is written for the value. -/
def display : Value → String
  | .number value => value.format numberStyle
  | .long value => toString value.toInt
  | .string text => text
  | .boolean value => if value then "true" else "false"
  | .null => "null"
  | .function id => "<function #" ++ toString id.toNat ++ ">"
  | .native builtin _ => "<native " ++ builtin.name ++ ">"

end Value

end StackScript

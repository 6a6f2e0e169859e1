import StackScript.Binary64.Reading
import StackScript.Bytecode.Instruction
import StackScript.Compile.Error

/-! The constants that numeric literals mean. A letter at the end may name a width; only the
one for long integers changes the kind of the constant.
-/

namespace StackScript

/-- Why text is no long integer. -/
inductive LongError
  | malformed
  | outOfRange
deriving DecidableEq, Repr

namespace LongError

/-- The greatest absolute value of a long integer of the given sign. -/
def bound (negative : Bool) : Nat :=
  if negative then Nat.pow 2 63 else Nat.pow 2 63 - 1

/-- Reads digits behind those that make up `value`, from left to right: the first character
that is no digit or takes the value out of range decides.
-/
def readDigits (negative : Bool) (value : Nat) : List Char → Except LongError Nat
  | [] => .ok value
  | c :: rest =>
      if c.isDigit then
        let next := 10 * value + (c.toNat - '0'.toNat)
        if bound negative < next then .error .outOfRange else readDigits negative next rest
      else .error .malformed

end LongError

/-- Reads a long integer: an optional sign and at least one digit. -/
def readLong (text : List Char) : Except LongError Int64 :=
  let (negative, digits) := Binary64.splitSign text
  if digits.isEmpty then .error .malformed
  else
    (LongError.readDigits negative 0 digits).map fun value =>
      Int64.ofInt (if negative then -(value : Int) else value)

/-- The width that the last letter of a literal names. -/
inductive Width
  | byte
  | short
  | long
deriving DecidableEq, Repr

namespace Width

/-- The width that a letter names, in either case. -/
def ofChar? (c : Char) : Option Width :=
  if c = 'b' || c = 'B' then some .byte
  else if c = 's' || c = 'S' then some .short
  else if c = 'l' || c = 'L' then some .long
  else none

/-- A literal without its width letter, and the width if there is one. -/
def split (text : List Char) : List Char × Option Width :=
  match text.getLast?.bind ofChar? with
  | some width => (text.dropLast, some width)
  | none => (text, none)

end Width

namespace Literal

/-- The constant that a numeric literal means. -/
def numeric (text : String) : Except CompileError Constant :=
  match Width.split text.toList with
  | (digits, some .long) =>
      match readLong digits with
      | .ok value => .ok (.long value)
      | .error .outOfRange => .error (.longOutOfRange text)
      | .error .malformed => .error (.invalidLiteral text)
  | (digits, _) =>
      match Binary64.ofText? (String.ofList digits) with
      | some value => .ok (.number value)
      | none => .error (.invalidLiteral text)

end Literal

end StackScript

import StackScript.Compile.Scope
import StackScript.Compile.Symbols

/-! Code under construction. A body collects the bytes of one function and knows its open
scopes; bytes are only ever added at the end, except that the distance of a jump may be
filled in when the end of the code is where the jump goes.
-/

namespace StackScript

/-- The bytes of a function so far, and the scope behind them. -/
structure Body where
  code : Array UInt8
  scope : Scope
deriving DecidableEq, Repr, Inhabited

namespace Body

/-- A body without code. -/
def empty : Body := ⟨#[], Scope.root⟩

/-- Adds bytes. -/
def emit (body : Body) (bytes : List UInt8) : Body :=
  { body with code := body.code ++ bytes }

/-- Adds an opcode. -/
def emitOpcode (body : Body) (opcode : Opcode) : Body :=
  body.emit [opcode.byte]

/-- Adds the two bytes that start the push of a constant of the given kind. -/
def emitPush (body : Body) (tag : Tag) : Body :=
  body.emit [Opcode.push.byte, tag.byte]

/-- Adds the push of a constant. -/
def emitConstant (body : Body) (value : Constant) : Body :=
  (body.emitPush value.tag).emit value.payload

/-- Adds an opcode and its operand of one byte. -/
def emitWithByte (body : Body) (opcode : Opcode) (operand : UInt8) : Body :=
  (body.emitOpcode opcode).emit [operand]

/-- Adds instructions. -/
def emitCode (body : Body) (code : List Instruction) : Body :=
  body.emit (encodeAll code)

/-- Adds a jump whose distance is not known yet, and gives the place of the distance. -/
def emitJump (body : Body) (opcode : Opcode) : Nat × Body :=
  (body.code.size + 1, body.emit [opcode.byte, 255, 255])

/-- Lets the jump whose distance stands at the given place go to the end of the code. -/
def patchJump (body : Body) (place : Nat) : Except CompileError Body :=
  let distance := body.code.size - (place + 2)
  if distance < 65536 then
    .ok
      { body with
        code :=
          (body.code.setIfInBounds place (UInt8.ofNat (distance % 256))).setIfInBounds (place + 1)
            (UInt8.ofNat (distance / 256)) }
  else .error (.jumpTooLarge distance)

/-- Opens a scope. -/
def enterScope (body : Body) : Body :=
  { body with scope := body.scope.enter }

/-- Closes the innermost scope, takes its locals off the stack and gives their number. -/
def leaveScope (body : Body) : Except CompileError (Nat × Body) := do
  let (count, outer) ← body.scope.leave
  return (count, { body with scope := outer }.emitCode (List.replicate count .pop))

/-- Declares a local whose value is on top of the stack. -/
def declare (body : Body) (name : String) : Except CompileError (UInt8 × Body) := do
  let (slot, scope) ← body.scope.declare name
  return (slot, { body with scope := scope })

/-- Ends the body and enters it as a function. -/
def toFunction (body : Body) (arity : UInt8) (symbols : Symbols)
    : Except CompileError (UInt8 × Symbols) :=
  symbols.addFunction ⟨arity, body.code⟩

end Body

end StackScript

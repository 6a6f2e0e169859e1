import StackScript.Compile.Error

/-! The local variables of one function while its code is generated. Locals live on the
operand stack: the place of a local among the live ones is its slot, and leaving the scope
that declared it takes it off the stack.
-/

namespace StackScript

/-- A local variable and the depth of the scope that declared it. -/
structure Local where
  name : String
  depth : Nat
deriving DecidableEq, Repr, Inhabited

/-- The open scopes of a function and its live locals, the latest first. -/
structure Scope where
  depth : Nat
  locals : List Local
deriving DecidableEq, Repr, Inhabited

namespace Scope

/-- No open scope and no locals. -/
def root : Scope := ⟨0, []⟩

/-- Opens a scope. -/
def enter (scope : Scope) : Scope :=
  { scope with depth := scope.depth + 1 }

/-- Closes the innermost scope, and gives the number of locals that it declared. -/
def leave (scope : Scope) : Except CompileError (Nat × Scope) :=
  match scope.depth with
  | 0 => .error .scopeUnderflow
  | outer + 1 =>
      let isInner := fun entry : Local => decide (outer < entry.depth)
      .ok ((scope.locals.takeWhile isInner).length, ⟨outer, scope.locals.dropWhile isInner⟩)

/-- Declares a local in the innermost scope, in the slot behind the live locals. -/
def declare (scope : Scope) (name : String) : Except CompileError (UInt8 × Scope) :=
  if scope.locals.length < 256 then
    .ok (UInt8.ofNat scope.locals.length,
      { scope with locals := ⟨name, scope.depth⟩ :: scope.locals })
  else .error (.tooManyLocals name)

/-- The slot of the latest local of a list with the given name. -/
def slotIn? (name : String) : List Local → Option UInt8
  | [] => none
  | latest :: older =>
      if latest.name = name then some (UInt8.ofNat older.length) else slotIn? name older

/-- The slot of the local that a name means here. -/
def slot? (scope : Scope) (name : String) : Option UInt8 :=
  slotIn? name scope.locals

end Scope

end StackScript

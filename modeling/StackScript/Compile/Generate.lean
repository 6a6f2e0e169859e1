import StackScript.Compile.Literal
import StackScript.Compile.Scope
import StackScript.Compile.Symbols
import StackScript.Tree.Basic

/-! Generating instructions from trees. The code of an expression leaves one value on the
stack; the code of a statement leaves nothing there but the values of the locals that it
declares. A jump is placed in front of code that is already generated, so that its distance
is known. These are the instructions whose bytes the compiler writes.
-/

namespace StackScript

/-- Instructions, or the reason why there are none, with the tables they refer to. -/
abbrev Generated := Except CompileError (List Instruction × Symbols)

/-- Instructions, or the reason why there are none, with the scope behind them. -/
abbrev GeneratedIn := Except CompileError (List Instruction × Scope × Symbols)

namespace Generate

/-- A jump over code of the given length. -/
def jumpOver (when : Jump) (distance : Nat) : Except CompileError Instruction :=
  if distance < 65536 then .ok (.jump when (UInt16.ofNat distance))
  else .error (.jumpTooLarge distance)

/-- Pushes the value of a variable. A name that means no local means a global. -/
def load (name : String) (scope : Scope) (symbols : Symbols) : Generated :=
  match scope.slot? name with
  | some slot => .ok ([.access .getLocal slot], symbols)
  | none => do
      let (slot, symbols) ← symbols.global name
      return ([.access .getGlobal slot], symbols)

/-- Stores the value on top in a variable and leaves it on top. -/
def store (name : String) (scope : Scope) (symbols : Symbols) : Generated :=
  match scope.slot? name with
  | some slot => .ok ([.access .setLocal slot], symbols)
  | none => do
      let (slot, symbols) ← symbols.global name
      return ([.access .setGlobal slot], symbols)

/-- Pushes a literal. -/
def literal (value : Literal) (symbols : Symbols) : Generated :=
  match value with
  | .number digits => do return ([.push (← Literal.numeric digits)], symbols)
  | .text content => do
      let (place, symbols) ← symbols.intern content
      return ([.push (.string place)], symbols)
  | .bool value => .ok ([.push (.boolean value)], symbols)
  | .null => .ok ([.push .null], symbols)

/-- Makes a variable of the value on top: a local where a scope is open, else a global. -/
def define (name : String) (scope : Scope) (symbols : Symbols) : GeneratedIn :=
  if scope.depth = 0 then do
    let (slot, symbols) ← symbols.global name
    return ([.access .setGlobal slot, .pop], scope, symbols)
  else do
    let (_, scope) ← scope.declare name
    return ([], scope, symbols)

/-- The scope in which the parameters of a function are declared. They stay when the body
ends, for a return removes them with the rest of the frame.
-/
def parameterScope (params : List String) : Except CompileError Scope :=
  params.foldlM (fun scope name => (scope.declare name).map Prod.snd) Scope.root.enter

/-- One side of a branch needs a scope of its own: it stands in a scope and has no braces. -/
def needsScope (scope : Scope) (side : Stmt) : Bool :=
  scope.depth != 0 && !side.isBlock

/-- The scope in which the code of one side of a branch is generated. -/
def sideScope (scope : Scope) (side : Stmt) : Scope :=
  if needsScope scope side then scope.enter else scope

/-- Closes the innermost scope behind code, and takes its locals off the stack. -/
def closeScope (code : List Instruction) (scope : Scope)
    : Except CompileError (List Instruction × Scope) := do
  let (count, outer) ← scope.leave
  return (code ++ List.replicate count .pop, outer)

/-- Closes the scope of one side of a branch, if it has one. -/
def closeSide (outer : Scope) (side : Stmt) (code : List Instruction) (scope : Scope)
    : Except CompileError (List Instruction × Scope) :=
  if needsScope outer side then closeScope code scope else .ok (code, scope)

/-- What ends a function whose body can be left at its end. -/
def epilogue (body : List Stmt) : List Instruction :=
  if Stmt.anyReturns body then [] else [.push .null, .ret]

end Generate

open Generate

mutual

/-- The code of an expression. -/
def Expr.generate : Expr → Scope → Symbols → Generated
  | .literal value, _, symbols => literal value symbols
  | .name name, scope, symbols => load name scope symbols
  | .binary op left right, scope, symbols => do
      let (leftCode, symbols) ← left.generate scope symbols
      let (rightCode, symbols) ← right.generate scope symbols
      return (leftCode ++ rightCode ++ [.operate op], symbols)
  | .logical op left right, scope, symbols => do
      let (leftCode, symbols) ← left.generate scope symbols
      let (rightCode, symbols) ← right.generate scope symbols
      let when :=
        match op with
        | .and => Jump.keepFalsy
        | .or => Jump.keepTruthy
      let skip ← jumpOver when (1 + codeLength rightCode)
      return (leftCode ++ skip :: .pop :: rightCode, symbols)
  | .assign name .set value, scope, symbols => do
      let (valueCode, symbols) ← value.generate scope symbols
      let (storeCode, symbols) ← store name scope symbols
      return (valueCode ++ storeCode, symbols)
  | .assign name (.update op) value, scope, symbols => do
      let (loadCode, symbols) ← load name scope symbols
      let (valueCode, symbols) ← value.generate scope symbols
      let (storeCode, symbols) ← store name scope symbols
      return (loadCode ++ valueCode ++ .operate op :: storeCode, symbols)
  | .call callee args, scope, symbols => do
      if 255 < args.length then throw (.tooManyArguments args.length)
      let (calleeCode, symbols) ← callee.generate scope symbols
      let (argsCode, symbols) ← generateArgs args scope symbols
      return (calleeCode ++ argsCode ++ [.call (UInt8.ofNat args.length)], symbols)
  | .function params body, _, symbols => do
      if 255 < params.length then throw (.tooManyParameters params.length)
      -- The body sees its parameters and the globals, but no local of the code around it.
      let scope ← parameterScope params
      let (bodyCode, inner, symbols) ← generateBody body scope.enter symbols
      let (code, _) ← closeScope bodyCode inner
      let code := (encodeAll (code ++ epilogue body)).toArray
      let (id, symbols) ← symbols.addFunction ⟨UInt8.ofNat params.length, code⟩
      return ([.push (.function id)], symbols)

/-- The code of arguments, from left to right. -/
def generateArgs : List Expr → Scope → Symbols → Generated
  | [], _, symbols => .ok ([], symbols)
  | arg :: rest, scope, symbols => do
      let (argCode, symbols) ← arg.generate scope symbols
      let (restCode, symbols) ← generateArgs rest scope symbols
      return (argCode ++ restCode, symbols)

/-- The code of a statement, and the scope behind it. -/
def Stmt.generate : Stmt → Scope → Symbols → GeneratedIn
  | .block _ body, scope, symbols => do
      let (bodyCode, inner, symbols) ← generateBody body scope.enter symbols
      let (code, outer) ← closeScope bodyCode inner
      return (code, outer, symbols)
  | .branch _ condition yes none, scope, symbols => do
      let (testCode, symbols) ← condition.generate scope symbols
      let (yesCode, inner, symbols) ← yes.generate (sideScope scope yes) symbols
      let (yesCode, scope) ← closeSide scope yes yesCode inner
      let skip ← jumpOver .popFalsy (codeLength yesCode)
      return (testCode ++ skip :: yesCode, scope, symbols)
  | .branch _ condition yes (some no), scope, symbols => do
      let (testCode, symbols) ← condition.generate scope symbols
      let (yesCode, inner, symbols) ← yes.generate (sideScope scope yes) symbols
      let (yesCode, scope) ← closeSide scope yes yesCode inner
      -- A side that always returns needs no jump over the other side.
      let returns := yes.alwaysReturns
      let skipYes ← jumpOver .popFalsy (codeLength yesCode + if returns then 0 else 3)
      let (noCode, inner, symbols) ← no.generate (sideScope scope no) symbols
      let (noCode, scope) ← closeSide scope no noCode inner
      if returns then return (testCode ++ skipYes :: yesCode ++ noCode, scope, symbols)
      let skipNo ← jumpOver .always (codeLength noCode)
      return (testCode ++ skipYes :: yesCode ++ skipNo :: noCode, scope, symbols)
  | .ret _ none, scope, symbols => .ok ([.push .null, .ret], scope, symbols)
  | .ret _ (some value), scope, symbols => do
      let (code, symbols) ← value.generate scope symbols
      return (code ++ [.ret], scope, symbols)
  | .define _ name none, scope, symbols => do
      let (code, scope, symbols) ← define name scope symbols
      return (.push .null :: code, scope, symbols)
  | .define _ name (some value), scope, symbols => do
      let (valueCode, symbols) ← value.generate scope symbols
      let (code, scope, symbols) ← define name scope symbols
      return (valueCode ++ code, scope, symbols)
  | .discard _ value, scope, symbols => do
      let (code, symbols) ← value.generate scope symbols
      return (code ++ [.pop], scope, symbols)

/-- The code of the statements of a block. What stands behind a statement that always returns
is never reached and has no code.
-/
def generateBody : List Stmt → Scope → Symbols → GeneratedIn
  | [], scope, symbols => .ok ([], scope, symbols)
  | statement :: rest, scope, symbols => do
      let (code, scope, symbols) ← statement.generate scope symbols
      if statement.alwaysReturns then return (code, scope, symbols)
      let (restCode, scope, symbols) ← generateBody rest scope symbols
      return (code ++ restCode, scope, symbols)

end

end StackScript

import StackScript.Compile.Body
import StackScript.Compile.Generate

/-! Writing code in one pass over a tree. The code of an expression leaves one value on the
stack; the code of a statement leaves nothing there but the values of the locals that it
declares. A jump is written before its distance is known, which is filled in when the code
that it skips is complete.
-/

namespace StackScript

/-- A body with more code and the tables that it refers to, or the reason why there is none. -/
abbrev Written := Except CompileError (Body × Symbols)

namespace Write

open Generate (needsScope)

/-- Writes an access to the variable that a name means: the first kind of access if it means a
local, else the second to a global.
-/
def access (toLocal toGlobal : Access) (name : String) (body : Body) (symbols : Symbols)
    : Written :=
  match body.scope.slot? name with
  | some slot => .ok (body.emitWithByte (.access toLocal) slot, symbols)
  | none => do
      let (slot, symbols) ← symbols.global name
      return (body.emitWithByte (.access toGlobal) slot, symbols)

/-- Pushes the value of a variable. -/
def load : String → Body → Symbols → Written :=
  access .getLocal .getGlobal

/-- Stores the value on top in a variable and leaves it on top. -/
def store : String → Body → Symbols → Written :=
  access .setLocal .setGlobal

/-- Pushes a literal. -/
def literal (value : Literal) (body : Body) (symbols : Symbols) : Written :=
  match value with
  | .number digits => do return (body.emitConstant (← Literal.numeric digits), symbols)
  | .text content => do
      let (place, symbols) ← symbols.intern content
      return (body.emitConstant (.string place), symbols)
  | .bool value => .ok (body.emitConstant (.boolean value), symbols)
  | .null => .ok (body.emitConstant .null, symbols)

/-- Makes a variable of the value on top: a local where a scope is open, else a global. -/
def define (name : String) (body : Body) (symbols : Symbols) : Written :=
  if body.scope.depth = 0 then do
    let (slot, symbols) ← symbols.global name
    return ((body.emitWithByte (.access .setGlobal) slot).emitOpcode .pop, symbols)
  else do
    let (_, body) ← body.declare name
    return (body, symbols)

/-- The body of a function, with its parameters in a scope of their own. They stay when the
body ends, for a return removes them with the rest of the frame.
-/
def parameters (params : List String) : Except CompileError Body :=
  params.foldlM (fun body name => (body.declare name).map Prod.snd) Body.empty.enterScope

/-- Closes the innermost scope and takes its locals off the stack. -/
def closeScope (body : Body) : Except CompileError Body :=
  body.leaveScope.map Prod.snd

/-- Opens a scope for one side of a branch that stands in a scope and has no braces. -/
def openSide (side : Stmt) (body : Body) : Body :=
  if needsScope body.scope side then body.enterScope else body

/-- Closes the scope that was opened for one side of a branch, if there is one. -/
def closeSide (outer : Scope) (side : Stmt) (body : Body) : Except CompileError Body :=
  if needsScope outer side then closeScope body else .ok body

/-- Ends a function whose body can be left at its end. -/
def epilogue (statements : List Stmt) (body : Body) : Body :=
  if Stmt.anyReturns statements then body else (body.emitPush .null).emitOpcode .ret

end Write

open Write

mutual

/-- Writes the code of an expression. -/
def Expr.write : Expr → Body → Symbols → Written
  | .literal value, body, symbols => literal value body symbols
  | .name name, body, symbols => load name body symbols
  | .binary op left right, body, symbols => do
      let (body, symbols) ← left.write body symbols
      let (body, symbols) ← right.write body symbols
      return (body.emitOpcode (.operate op), symbols)
  | .logical op left right, body, symbols => do
      let (body, symbols) ← left.write body symbols
      let when :=
        match op with
        | .and => Jump.keepFalsy
        | .or => Jump.keepTruthy
      let (place, body) := body.emitJump (.jump when)
      let (body, symbols) ← right.write (body.emitOpcode .pop) symbols
      return (← body.patchJump place, symbols)
  | .assign name .set value, body, symbols => do
      let (body, symbols) ← value.write body symbols
      store name body symbols
  | .assign name (.update op) value, body, symbols => do
      let (body, symbols) ← load name body symbols
      let (body, symbols) ← value.write body symbols
      store name (body.emitOpcode (.operate op)) symbols
  | .call callee args, body, symbols => do
      if 255 < args.length then throw (.tooManyArguments args.length)
      let (body, symbols) ← callee.write body symbols
      let (body, symbols) ← writeArgs args body symbols
      return (body.emitWithByte .call (UInt8.ofNat args.length), symbols)
  | .function params statements, body, symbols => do
      if 255 < params.length then throw (.tooManyParameters params.length)
      -- The function has a body of its own, which sees no local of the one around it.
      let inner ← parameters params
      let (inner, symbols) ← writeStatements statements inner.enterScope symbols
      let inner ← closeScope inner
      let (id, symbols) ←
        (epilogue statements inner).toFunction (UInt8.ofNat params.length) symbols
      return (body.emitConstant (.function id), symbols)

/-- Writes the code of arguments, from left to right. -/
def writeArgs : List Expr → Body → Symbols → Written
  | [], body, symbols => .ok (body, symbols)
  | arg :: rest, body, symbols => do
      let (body, symbols) ← arg.write body symbols
      writeArgs rest body symbols

/-- Writes the code of a statement. -/
def Stmt.write : Stmt → Body → Symbols → Written
  | .block _ statements, body, symbols => do
      let (body, symbols) ← writeStatements statements body.enterScope symbols
      return (← closeScope body, symbols)
  | .branch _ condition yes none, body, symbols => do
      let (body, symbols) ← condition.write body symbols
      let (skipYes, body) := body.emitJump (.jump .popFalsy)
      let scope := body.scope
      let (body, symbols) ← yes.write (openSide yes body) symbols
      let body ← closeSide scope yes body
      return (← body.patchJump skipYes, symbols)
  | .branch _ condition yes (some no), body, symbols => do
      let (body, symbols) ← condition.write body symbols
      let (skipYes, body) := body.emitJump (.jump .popFalsy)
      let scope := body.scope
      let (body, symbols) ← yes.write (openSide yes body) symbols
      let body ← closeSide scope yes body
      if yes.alwaysReturns then
        -- A side that always returns needs no jump over the other side.
        let body ← body.patchJump skipYes
        let scope := body.scope
        let (body, symbols) ← no.write (openSide no body) symbols
        return (← closeSide scope no body, symbols)
      else
        let (skipNo, body) := body.emitJump (.jump .always)
        let body ← body.patchJump skipYes
        let scope := body.scope
        let (body, symbols) ← no.write (openSide no body) symbols
        let body ← closeSide scope no body
        return (← body.patchJump skipNo, symbols)
  | .ret _ none, body, symbols => .ok ((body.emitPush .null).emitOpcode .ret, symbols)
  | .ret _ (some value), body, symbols => do
      let (body, symbols) ← value.write body symbols
      return (body.emitOpcode .ret, symbols)
  | .define _ name none, body, symbols => define name (body.emitPush .null) symbols
  | .define _ name (some value), body, symbols => do
      let (body, symbols) ← value.write body symbols
      define name body symbols
  | .discard _ value, body, symbols => do
      let (body, symbols) ← value.write body symbols
      return (body.emitOpcode .pop, symbols)

/-- Writes the code of the statements of a block. What stands behind a statement that always
returns is never reached and has no code.
-/
def writeStatements : List Stmt → Body → Symbols → Written
  | [], body, symbols => .ok (body, symbols)
  | statement :: rest, body, symbols => do
      let (body, symbols) ← statement.write body symbols
      if statement.alwaysReturns then return (body, symbols)
      writeStatements rest body symbols

end

namespace Script

/-- Compiles a script. Its statements, in order, are the main code. -/
def compile (script : Script) : Except CompileError Program := do
  let (body, symbols) ←
    script.statements.foldlM (fun (body, symbols) statement => statement.write body symbols)
      (Body.empty, Symbols.initial)
  return {
    main := body.code
    functions := symbols.functions.map some
    strings := symbols.strings.entries
    globalCount := symbols.globalCount }

end Script

end StackScript

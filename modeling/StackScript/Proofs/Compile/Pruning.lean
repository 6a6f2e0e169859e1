import StackScript.Compile.Write

/-! Trees without the statements that are never reached. Blocks and bodies of functions are cut
behind their first statement that always returns, at all depths at once. No trace of what is
cut away is in the program: it has no code, enters nothing in the tables and breaks no limit.
-/

namespace StackScript

mutual

/-- The expression without unreachable statements. -/
def Expr.pruned : Expr → Expr
  | .literal value => .literal value
  | .name name => .name name
  | .binary op left right => .binary op left.pruned right.pruned
  | .logical op left right => .logical op left.pruned right.pruned
  | .assign name how value => .assign name how value.pruned
  | .call callee args => .call callee.pruned (prunedArgs args)
  | .function params body => .function params (prunedBody body)

/-- The expressions of a list without unreachable statements. -/
def prunedArgs : List Expr → List Expr
  | [] => []
  | arg :: rest => arg.pruned :: prunedArgs rest

/-- The statement without the unreachable ones inside it. -/
def Stmt.pruned : Stmt → Stmt
  | .block span body => .block span (prunedBody body)
  | .branch span condition yes none => .branch span condition.pruned yes.pruned none
  | .branch span condition yes (some no) =>
      .branch span condition.pruned yes.pruned (some no.pruned)
  | .ret span none => .ret span none
  | .ret span (some value) => .ret span (some value.pruned)
  | .define span name none => .define span name none
  | .define span name (some value) => .define span name (some value.pruned)
  | .discard span value => .discard span value.pruned

/-- The statements of a block up to the first that always returns. -/
def prunedBody : List Stmt → List Stmt
  | [] => []
  | statement :: rest =>
      if statement.alwaysReturns then [statement.pruned]
      else statement.pruned :: prunedBody rest

end

/-- The script with its blocks and function bodies cut. Its own statements all stay, since
those behind one that returns have code as well.
-/
def Script.pruned (script : Script) : Script :=
  ⟨script.statements.map Stmt.pruned⟩

-----------------------------------------------------------------------------------------
-- What the shape of a tree decides
-----------------------------------------------------------------------------------------

theorem length_prunedArgs (args : List Expr) : (prunedArgs args).length = args.length := by
  induction args with
  | nil => rfl
  | cons arg rest ih => rw [prunedArgs, List.length_cons, List.length_cons, ih]

theorem Stmt.isBlock_pruned (statement : Stmt) : statement.pruned.isBlock = statement.isBlock := by
  cases statement with
  | block span body => rfl
  | branch span condition yes no => cases no <;> rfl
  | ret span value => cases value <;> rfl
  | define span name value => cases value <;> rfl
  | discard span value => rfl

mutual

/-- A cut statement always returns just if the whole one does, by induction on the
statement: what decides this is never cut away.
-/
theorem Stmt.alwaysReturns_pruned (statement : Stmt)
    : statement.pruned.alwaysReturns = statement.alwaysReturns := by
  cases statement with
  | block span body => exact Stmt.anyReturns_pruned body
  | branch span condition yes no =>
      cases no with
      | none => rfl
      | some no =>
          simp only [Stmt.pruned, Stmt.alwaysReturns, Stmt.alwaysReturns_pruned yes,
            Stmt.alwaysReturns_pruned no]
  | ret span value => cases value <;> rfl
  | define span name value => cases value <;> rfl
  | discard span value => rfl
termination_by structural statement

theorem Stmt.anyReturns_pruned (body : List Stmt)
    : Stmt.anyReturns (prunedBody body) = Stmt.anyReturns body := by
  cases body with
  | nil => rfl
  | cons statement rest =>
      have first := Stmt.alwaysReturns_pruned statement
      cases returns : statement.alwaysReturns with
      | true => simp [prunedBody, Stmt.anyReturns, first, returns]
      | false =>
          simp [prunedBody, Stmt.anyReturns, first, returns, Stmt.anyReturns_pruned rest]
termination_by structural body

end

namespace Write

theorem openSide_pruned (side : Stmt) (body : Body)
    : openSide side.pruned body = openSide side body := by
  rw [openSide, openSide, Generate.needsScope, Generate.needsScope, side.isBlock_pruned]

theorem closeSide_pruned (outer : Scope) (side : Stmt) (body : Body)
    : closeSide outer side.pruned body = closeSide outer side body := by
  rw [closeSide, closeSide, Generate.needsScope, Generate.needsScope, side.isBlock_pruned]

theorem epilogue_pruned (statements : List Stmt) (body : Body)
    : epilogue (prunedBody statements) body = epilogue statements body := by
  rw [epilogue, epilogue, Stmt.anyReturns_pruned]

end Write

-----------------------------------------------------------------------------------------
-- Code
-----------------------------------------------------------------------------------------

mutual

/-- Cutting an expression changes neither its code nor the tables nor why there is none, by
induction on the expression.
-/
theorem Expr.write_pruned (expression : Expr) : expression.pruned.write = expression.write := by
  funext body symbols
  cases expression with
  | literal value => rfl
  | name name => rfl
  | binary op left right =>
      simp only [Expr.pruned, Expr.write, Expr.write_pruned left, Expr.write_pruned right]
  | logical op left right =>
      simp only [Expr.pruned, Expr.write, Expr.write_pruned left, Expr.write_pruned right]
  | assign name how value =>
      cases how with
      | set => simp only [Expr.pruned, Expr.write, Expr.write_pruned value]
      | update op => simp only [Expr.pruned, Expr.write, Expr.write_pruned value]
  | call callee args =>
      simp only [Expr.pruned, Expr.write, Expr.write_pruned callee, writeArgs_pruned args,
        length_prunedArgs]
  | function params statements =>
      simp only [Expr.pruned, Expr.write, writeStatements_pruned statements,
        Write.epilogue_pruned]
termination_by structural expression

theorem writeArgs_pruned (args : List Expr) : writeArgs (prunedArgs args) = writeArgs args := by
  funext body symbols
  cases args with
  | nil => rfl
  | cons arg rest =>
      simp only [prunedArgs, writeArgs, Expr.write_pruned arg, writeArgs_pruned rest]
termination_by structural args

theorem Stmt.write_pruned (statement : Stmt) : statement.pruned.write = statement.write := by
  funext body symbols
  cases statement with
  | block span statements =>
      simp only [Stmt.pruned, Stmt.write, writeStatements_pruned statements]
  | branch span condition yes no =>
      cases no with
      | none =>
          simp only [Stmt.pruned, Stmt.write, Expr.write_pruned condition, Stmt.write_pruned yes,
            Write.openSide_pruned, Write.closeSide_pruned]
      | some no =>
          simp only [Stmt.pruned, Stmt.write, Expr.write_pruned condition, Stmt.write_pruned yes,
            Stmt.write_pruned no, Stmt.alwaysReturns_pruned, Write.openSide_pruned,
            Write.closeSide_pruned]
  | ret span value =>
      cases value with
      | none => rfl
      | some value => simp only [Stmt.pruned, Stmt.write, Expr.write_pruned value]
  | define span name value =>
      cases value with
      | none => rfl
      | some value => simp only [Stmt.pruned, Stmt.write, Expr.write_pruned value]
  | discard span value => simp only [Stmt.pruned, Stmt.write, Expr.write_pruned value]
termination_by structural statement

/-- The cut statements are those that are written anyway. -/
theorem writeStatements_pruned (statements : List Stmt)
    : writeStatements (prunedBody statements) = writeStatements statements := by
  funext body symbols
  cases statements with
  | nil => rfl
  | cons statement rest =>
      have first := Stmt.write_pruned statement
      cases returns : statement.alwaysReturns with
      | true =>
          simp only [prunedBody, returns, if_true, writeStatements, first,
            Stmt.alwaysReturns_pruned]
      | false =>
          simp only [prunedBody, returns, Bool.false_eq_true, if_false, writeStatements, first,
            Stmt.alwaysReturns_pruned, writeStatements_pruned rest]
termination_by structural statements

end

/-- A script without its unreachable statements compiles to the same program, or fails with
the same error.
-/
theorem Script.compile_pruned (script : Script) : script.pruned.compile = script.compile := by
  simp only [compile, pruned, List.foldlM_map, Stmt.write_pruned]

end StackScript

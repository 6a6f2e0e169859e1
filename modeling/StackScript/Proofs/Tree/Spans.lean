import StackScript.Compile.Write
import StackScript.Tree.Json

/-! Trees without their spans. Neither the JSON form of a tree nor the code that is compiled
from it depends on the places at which its statements stand in the source.
-/

namespace StackScript

mutual

/-- The expression with unknown spans. -/
def Expr.withoutSpans : Expr → Expr
  | .literal value => .literal value
  | .name name => .name name
  | .binary op left right => .binary op left.withoutSpans right.withoutSpans
  | .logical op left right => .logical op left.withoutSpans right.withoutSpans
  | .assign name how value => .assign name how value.withoutSpans
  | .call callee args => .call callee.withoutSpans (exprsWithoutSpans args)
  | .function params body => .function params (stmtsWithoutSpans body)

/-- The expressions of a list with unknown spans. -/
def exprsWithoutSpans : List Expr → List Expr
  | [] => []
  | expr :: rest => expr.withoutSpans :: exprsWithoutSpans rest

/-- The statement with unknown spans. -/
def Stmt.withoutSpans : Stmt → Stmt
  | .block _ body => .block Span.unknown (stmtsWithoutSpans body)
  | .branch _ condition yes no =>
      .branch Span.unknown condition.withoutSpans yes.withoutSpans (stmtWithoutSpans? no)
  | .ret _ value => .ret Span.unknown (exprWithoutSpans? value)
  | .define _ name value => .define Span.unknown name (exprWithoutSpans? value)
  | .discard _ value => .discard Span.unknown value.withoutSpans

/-- A statement that may be missing, with unknown spans. -/
def stmtWithoutSpans? : Option Stmt → Option Stmt
  | none => none
  | some statement => some statement.withoutSpans

/-- An expression that may be missing, with unknown spans. -/
def exprWithoutSpans? : Option Expr → Option Expr
  | none => none
  | some expr => some expr.withoutSpans

/-- The statements of a list with unknown spans. -/
def stmtsWithoutSpans : List Stmt → List Stmt
  | [] => []
  | statement :: rest => statement.withoutSpans :: stmtsWithoutSpans rest

end

/-- The script with unknown spans. -/
def Script.withoutSpans (script : Script) : Script :=
  ⟨stmtsWithoutSpans script.statements⟩

-----------------------------------------------------------------------------------------
-- The JSON form
-----------------------------------------------------------------------------------------

mutual

theorem Expr.toJson_withoutSpans (expr : Expr) : expr.withoutSpans.toJson = expr.toJson := by
  cases expr with
  | literal value => rfl
  | name name => rfl
  | binary op left right =>
      simp only [Expr.withoutSpans, Expr.toJson, Expr.toJson_withoutSpans left,
        Expr.toJson_withoutSpans right]
  | logical op left right =>
      simp only [Expr.withoutSpans, Expr.toJson, Expr.toJson_withoutSpans left,
        Expr.toJson_withoutSpans right]
  | assign name how value =>
      simp only [Expr.withoutSpans, Expr.toJson, Expr.toJson_withoutSpans value]
  | call callee args =>
      simp only [Expr.withoutSpans, Expr.toJson, Expr.toJson_withoutSpans callee,
        exprsToJson_withoutSpans args]
  | function params body =>
      simp only [Expr.withoutSpans, Expr.toJson, stmtsToJson_withoutSpans body]
termination_by structural expr

theorem exprsToJson_withoutSpans (exprs : List Expr)
    : exprsToJson (exprsWithoutSpans exprs) = exprsToJson exprs := by
  cases exprs with
  | nil => rfl
  | cons expr rest =>
      simp only [exprsWithoutSpans, exprsToJson, Expr.toJson_withoutSpans expr,
        exprsToJson_withoutSpans rest]
termination_by structural exprs

theorem Stmt.toJson_withoutSpans (statement : Stmt)
    : statement.withoutSpans.toJson = statement.toJson := by
  cases statement with
  | block span body =>
      simp only [Stmt.withoutSpans, Stmt.toJson, stmtsToJson_withoutSpans body]
  | branch span condition yes no =>
      simp only [Stmt.withoutSpans, Stmt.toJson, Expr.toJson_withoutSpans condition,
        Stmt.toJson_withoutSpans yes, stmtToJson?_withoutSpans no]
  | ret span value =>
      simp only [Stmt.withoutSpans, Stmt.toJson, exprToJson?_withoutSpans value]
  | define span name value =>
      simp only [Stmt.withoutSpans, Stmt.toJson, exprToJson?_withoutSpans value]
  | discard span value =>
      simp only [Stmt.withoutSpans, Stmt.toJson, Expr.toJson_withoutSpans value]
termination_by structural statement

theorem stmtToJson?_withoutSpans (statement : Option Stmt)
    : stmtToJson? (stmtWithoutSpans? statement) = stmtToJson? statement := by
  cases statement with
  | none => rfl
  | some statement => exact Stmt.toJson_withoutSpans statement
termination_by structural statement

theorem exprToJson?_withoutSpans (expr : Option Expr)
    : exprToJson? (exprWithoutSpans? expr) = exprToJson? expr := by
  cases expr with
  | none => rfl
  | some expr => exact Expr.toJson_withoutSpans expr
termination_by structural expr

theorem stmtsToJson_withoutSpans (statements : List Stmt)
    : stmtsToJson (stmtsWithoutSpans statements) = stmtsToJson statements := by
  cases statements with
  | nil => rfl
  | cons statement rest =>
      simp only [stmtsWithoutSpans, stmtsToJson, Stmt.toJson_withoutSpans statement,
        stmtsToJson_withoutSpans rest]
termination_by structural statements

end

theorem Script.toJson_withoutSpans (script : Script)
    : script.withoutSpans.toJson = script.toJson := by
  rw [withoutSpans, toJson, toJson, stmtsToJson_withoutSpans]

-----------------------------------------------------------------------------------------
-- Compiling
-----------------------------------------------------------------------------------------

theorem Stmt.isBlock_withoutSpans (statement : Stmt)
    : statement.withoutSpans.isBlock = statement.isBlock := by
  cases statement <;> rfl

theorem length_exprsWithoutSpans (exprs : List Expr)
    : (exprsWithoutSpans exprs).length = exprs.length := by
  induction exprs with
  | nil => rfl
  | cons expr rest ih => rw [exprsWithoutSpans, List.length_cons, List.length_cons, ih]

mutual

theorem Stmt.alwaysReturns_withoutSpans (statement : Stmt)
    : statement.withoutSpans.alwaysReturns = statement.alwaysReturns := by
  cases statement with
  | block span body => exact Stmt.anyReturns_withoutSpans body
  | branch span condition yes no =>
      cases no with
      | none => rfl
      | some no =>
          simp only [Stmt.withoutSpans, stmtWithoutSpans?, Stmt.alwaysReturns,
            Stmt.alwaysReturns_withoutSpans yes, Stmt.alwaysReturns_withoutSpans no]
  | ret span value => rfl
  | define span name value => rfl
  | discard span value => rfl
termination_by structural statement

theorem Stmt.anyReturns_withoutSpans (statements : List Stmt)
    : Stmt.anyReturns (stmtsWithoutSpans statements) = Stmt.anyReturns statements := by
  cases statements with
  | nil => rfl
  | cons statement rest =>
      simp only [stmtsWithoutSpans, Stmt.anyReturns, Stmt.alwaysReturns_withoutSpans statement,
        Stmt.anyReturns_withoutSpans rest]
termination_by structural statements

end

namespace Write

theorem openSide_withoutSpans (side : Stmt) (body : Body)
    : openSide side.withoutSpans body = openSide side body := by
  rw [openSide, openSide, Generate.needsScope, Generate.needsScope, side.isBlock_withoutSpans]

theorem closeSide_withoutSpans (outer : Scope) (side : Stmt) (body : Body)
    : closeSide outer side.withoutSpans body = closeSide outer side body := by
  rw [closeSide, closeSide, Generate.needsScope, Generate.needsScope, side.isBlock_withoutSpans]

theorem epilogue_withoutSpans (statements : List Stmt) (body : Body)
    : epilogue (stmtsWithoutSpans statements) body = epilogue statements body := by
  rw [epilogue, epilogue, Stmt.anyReturns_withoutSpans]

end Write

mutual

/-- Writing code never looks at a span, by induction on the tree. -/
theorem Expr.write_withoutSpans (expr : Expr) : expr.withoutSpans.write = expr.write := by
  funext body symbols
  cases expr with
  | literal value => rfl
  | name name => rfl
  | binary op left right =>
      simp only [Expr.withoutSpans, Expr.write, Expr.write_withoutSpans left,
        Expr.write_withoutSpans right]
  | logical op left right =>
      simp only [Expr.withoutSpans, Expr.write, Expr.write_withoutSpans left,
        Expr.write_withoutSpans right]
  | assign name how value =>
      cases how <;>
        simp only [Expr.withoutSpans, Expr.write, Expr.write_withoutSpans value]
  | call callee args =>
      simp only [Expr.withoutSpans, Expr.write, Expr.write_withoutSpans callee,
        writeArgs_withoutSpans args, length_exprsWithoutSpans]
  | function params statements =>
      simp only [Expr.withoutSpans, Expr.write, writeStatements_withoutSpans statements,
        Write.epilogue_withoutSpans]
termination_by structural expr

theorem writeArgs_withoutSpans (args : List Expr)
    : writeArgs (exprsWithoutSpans args) = writeArgs args := by
  funext body symbols
  cases args with
  | nil => rfl
  | cons arg rest =>
      simp only [exprsWithoutSpans, writeArgs, Expr.write_withoutSpans arg,
        writeArgs_withoutSpans rest]
termination_by structural args

theorem Stmt.write_withoutSpans (statement : Stmt)
    : statement.withoutSpans.write = statement.write := by
  funext body symbols
  cases statement with
  | block span statements =>
      simp only [Stmt.withoutSpans, Stmt.write, writeStatements_withoutSpans statements]
  | branch span condition yes no =>
      cases no with
      | none =>
          simp only [Stmt.withoutSpans, stmtWithoutSpans?, Stmt.write,
            Expr.write_withoutSpans condition, Stmt.write_withoutSpans yes,
            Write.openSide_withoutSpans, Write.closeSide_withoutSpans]
      | some no =>
          simp only [Stmt.withoutSpans, stmtWithoutSpans?, Stmt.write,
            Expr.write_withoutSpans condition, Stmt.write_withoutSpans yes,
            Stmt.write_withoutSpans no, Stmt.alwaysReturns_withoutSpans,
            Write.openSide_withoutSpans, Write.closeSide_withoutSpans]
  | ret span value =>
      cases value with
      | none => rfl
      | some value =>
          simp only [Stmt.withoutSpans, exprWithoutSpans?, Stmt.write,
            Expr.write_withoutSpans value]
  | define span name value =>
      cases value with
      | none => rfl
      | some value =>
          simp only [Stmt.withoutSpans, exprWithoutSpans?, Stmt.write,
            Expr.write_withoutSpans value]
  | discard span value =>
      simp only [Stmt.withoutSpans, Stmt.write, Expr.write_withoutSpans value]
termination_by structural statement

theorem writeStatements_withoutSpans (statements : List Stmt)
    : writeStatements (stmtsWithoutSpans statements) = writeStatements statements := by
  funext body symbols
  cases statements with
  | nil => rfl
  | cons statement rest =>
      simp only [stmtsWithoutSpans, writeStatements, Stmt.write_withoutSpans statement,
        Stmt.alwaysReturns_withoutSpans, writeStatements_withoutSpans rest]
termination_by structural statements

end

/-- A script without its spans compiles to the same program, or fails with the same error. -/
theorem Script.compile_withoutSpans (script : Script)
    : script.withoutSpans.compile = script.compile := by
  have fold (step : Body × Symbols → Stmt → Except CompileError (Body × Symbols))
      (same : ∀ state statement, step state statement.withoutSpans = step state statement)
      (statements : List Stmt) (start : Body × Symbols)
      : (stmtsWithoutSpans statements).foldlM step start = statements.foldlM step start := by
    induction statements generalizing start with
    | nil => rfl
    | cons statement rest ih =>
        simp only [stmtsWithoutSpans, List.foldlM_cons, same, ih]
  rw [compile, compile, withoutSpans, fold]
  intro state statement
  exact congrFun (congrFun statement.write_withoutSpans state.1) state.2

end StackScript

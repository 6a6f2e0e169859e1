import StackScript.Proofs.Tree.Spans

/-! A tree that is read back from its JSON form is the tree with unknown spans. Each kind of
node has one equation for reading it, and the tree is read back by induction.
-/

namespace StackScript

-----------------------------------------------------------------------------------------
-- Leaves
-----------------------------------------------------------------------------------------

theorem Operator.ofJson?_treeName (op : Operator)
    : Operator.ofJson? (.string op.treeName) = some op := by
  cases op <;> decide

theorem LogicalOperator.ofJson?_treeName (op : LogicalOperator)
    : LogicalOperator.ofJson? (.string op.treeName) = some op := by
  cases op <;> decide

theorem Literal.ofJson?_toJson (value : Literal)
    : Literal.ofJson? value.toJson = some value := by
  cases value <;> rfl

theorem Assignment.ofJson?_toJson (how : Assignment)
    : Assignment.ofJson? how.toJson = some how := by
  cases how with
  | set => rfl
  | update op => exact congrArg (Option.map Assignment.update) op.ofJson?_treeName

theorem Json.strings?_map (texts : List String)
    : Json.strings? (.array (texts.map .string)) = some texts := by
  rw [strings?]
  induction texts with
  | nil => rfl
  | cons text rest ih =>
      rw [List.map_cons, List.mapM_cons, ih]
      rfl

-----------------------------------------------------------------------------------------
-- Nodes
-----------------------------------------------------------------------------------------

section

variable (op left right name how value callee params condition yes no : Json)
variable (items : List Json) (text : String)

theorem Expr.ofJson?_literal
    : Expr.ofJson? (.node "Literal" value) = (Literal.ofJson? value).map .literal := by
  rw [Expr.ofJson?]
  rfl

theorem Expr.ofJson?_name : Expr.ofJson? (.node "Ident" (.string text)) = some (.name text) := by
  rw [Expr.ofJson?]
  rfl

theorem Expr.ofJson?_binary
    : Expr.ofJson? (.node "Binary" (.object [("op", op), ("left", left), ("right", right)]))
      = do return .binary (← Operator.ofJson? op) (← ofJson? left) (← ofJson? right) := by
  rw [Expr.ofJson?]
  rfl

theorem Expr.ofJson?_logical
    : Expr.ofJson? (.node "Logical" (.object [("op", op), ("left", left), ("right", right)]))
      = do return .logical (← LogicalOperator.ofJson? op) (← ofJson? left) (← ofJson? right) := by
  rw [Expr.ofJson?]
  rfl

theorem Expr.ofJson?_assign
    : Expr.ofJson?
        (.node "Assign" (.object [("name", .string text), ("op", how), ("value", value)]))
      = do return .assign text (← Assignment.ofJson? how) (← ofJson? value) := by
  rw [Expr.ofJson?]
  rfl

theorem Expr.ofJson?_call
    : Expr.ofJson? (.node "Call" (.object [("callee", callee), ("args", .array items)]))
      = do return .call (← ofJson? callee) (← exprsOfJson? items) := by
  rw [Expr.ofJson?]
  rfl

theorem Expr.ofJson?_function
    : Expr.ofJson? (.node "Function" (.object [("params", params), ("body", .array items)]))
      = do return .function (← params.strings?) (← stmtsOfJson? items) := by
  rw [Expr.ofJson?]
  rfl

theorem Stmt.ofJson?_block
    : Stmt.ofJson? (.node "Block" (.array items))
      = do return .block Span.unknown (← stmtsOfJson? items) := by
  rw [Stmt.ofJson?]
  rfl

theorem Stmt.ofJson?_branch
    : Stmt.ofJson?
        (.node "If"
          (.object [("condition", condition), ("then_branch", yes), ("else_branch", no)]))
      = do
          return .branch Span.unknown (← Expr.ofJson? condition) (← ofJson? yes)
            (← stmtOrNull? no) := by
  rw [Stmt.ofJson?]
  rfl

theorem Stmt.ofJson?_ret
    : Stmt.ofJson? (.node "Return" value)
      = do return .ret Span.unknown (← exprOrNull? value) := by
  rw [Stmt.ofJson?]
  rfl

theorem Stmt.ofJson?_define
    : Stmt.ofJson? (.node "Let" (.object [("name", .string text), ("value", value)]))
      = do return .define Span.unknown text (← exprOrNull? value) := by
  rw [Stmt.ofJson?]
  rfl

theorem Stmt.ofJson?_discard
    : Stmt.ofJson? (.node "Expr" value)
      = do return .discard Span.unknown (← Expr.ofJson? value) := by
  rw [Stmt.ofJson?]
  rfl

end

/-- No expression is written as null. -/
theorem exprOrNull?_toJson (expr : Expr)
    : exprOrNull? expr.toJson = (Expr.ofJson? expr.toJson).map some := by
  cases expr <;>
    · rw [Expr.toJson, exprOrNull?]
      rintro ⟨⟩

/-- No statement is written as null. -/
theorem stmtOrNull?_toJson (statement : Stmt)
    : stmtOrNull? statement.toJson = (Stmt.ofJson? statement.toJson).map some := by
  cases statement <;>
    · rw [Stmt.toJson, stmtOrNull?]
      rintro ⟨⟩

-----------------------------------------------------------------------------------------
-- Trees
-----------------------------------------------------------------------------------------

mutual

theorem Expr.ofJson?_toJson (expr : Expr) : Expr.ofJson? expr.toJson = some expr.withoutSpans := by
  cases expr with
  | literal value =>
      rw [Expr.toJson, Expr.ofJson?_literal, Literal.ofJson?_toJson]
      rfl
  | name name => rw [Expr.toJson, Expr.ofJson?_name, Expr.withoutSpans]
  | binary op left right =>
      rw [Expr.toJson, Expr.ofJson?_binary, op.ofJson?_treeName, Expr.ofJson?_toJson left,
        Expr.ofJson?_toJson right]
      rfl
  | logical op left right =>
      rw [Expr.toJson, Expr.ofJson?_logical, op.ofJson?_treeName, Expr.ofJson?_toJson left,
        Expr.ofJson?_toJson right]
      rfl
  | assign name how value =>
      rw [Expr.toJson, Expr.ofJson?_assign, how.ofJson?_toJson, Expr.ofJson?_toJson value]
      rfl
  | call callee args =>
      rw [Expr.toJson, Expr.ofJson?_call, Expr.ofJson?_toJson callee, exprsOfJson?_toJson args]
      rfl
  | function params body =>
      rw [Expr.toJson, Expr.ofJson?_function, Json.strings?_map, stmtsOfJson?_toJson body]
      rfl
termination_by structural expr

theorem exprsOfJson?_toJson (exprs : List Expr)
    : exprsOfJson? (exprsToJson exprs) = some (exprsWithoutSpans exprs) := by
  cases exprs with
  | nil => rw [exprsToJson, exprsOfJson?, exprsWithoutSpans]
  | cons expr rest =>
      rw [exprsToJson, exprsOfJson?, Expr.ofJson?_toJson expr, exprsOfJson?_toJson rest]
      rfl
termination_by structural exprs

theorem Stmt.ofJson?_toJson (statement : Stmt)
    : Stmt.ofJson? statement.toJson = some statement.withoutSpans := by
  cases statement with
  | block span body =>
      rw [Stmt.toJson, Stmt.ofJson?_block, stmtsOfJson?_toJson body]
      rfl
  | branch span condition yes no =>
      rw [Stmt.toJson, Stmt.ofJson?_branch, Expr.ofJson?_toJson condition,
        Stmt.ofJson?_toJson yes, stmtOrNull?_toJson? no]
      rfl
  | ret span value =>
      rw [Stmt.toJson, Stmt.ofJson?_ret, exprOrNull?_toJson? value]
      rfl
  | define span name value =>
      rw [Stmt.toJson, Stmt.ofJson?_define, exprOrNull?_toJson? value]
      rfl
  | discard span value =>
      rw [Stmt.toJson, Stmt.ofJson?_discard, Expr.ofJson?_toJson value]
      rfl
termination_by structural statement

theorem stmtOrNull?_toJson? (statement : Option Stmt)
    : stmtOrNull? (stmtToJson? statement) = some (stmtWithoutSpans? statement) := by
  cases statement with
  | none => rw [stmtToJson?, stmtOrNull?, stmtWithoutSpans?]
  | some statement =>
      rw [stmtToJson?, stmtOrNull?_toJson, Stmt.ofJson?_toJson statement]
      rfl
termination_by structural statement

theorem exprOrNull?_toJson? (expr : Option Expr)
    : exprOrNull? (exprToJson? expr) = some (exprWithoutSpans? expr) := by
  cases expr with
  | none => rw [exprToJson?, exprOrNull?, exprWithoutSpans?]
  | some expr =>
      rw [exprToJson?, exprOrNull?_toJson, Expr.ofJson?_toJson expr]
      rfl
termination_by structural expr

theorem stmtsOfJson?_toJson (statements : List Stmt)
    : stmtsOfJson? (stmtsToJson statements) = some (stmtsWithoutSpans statements) := by
  cases statements with
  | nil => rw [stmtsToJson, stmtsOfJson?, stmtsWithoutSpans]
  | cons statement rest =>
      rw [stmtsToJson, stmtsOfJson?, Stmt.ofJson?_toJson statement, stmtsOfJson?_toJson rest]
      rfl
termination_by structural statements

end

/-- A script that is read back from its JSON form is the script with unknown spans. -/
theorem Script.ofJson?_toJson (script : Script)
    : Script.ofJson? script.toJson = some script.withoutSpans := by
  have items : Script.ofJson? script.toJson
      = do return ⟨← stmtsOfJson? (stmtsToJson script.statements)⟩ := rfl
  rw [items, stmtsOfJson?_toJson]
  rfl

end StackScript

import StackScript.Operator
import StackScript.Source.Span

/-! Syntax trees. Every statement carries the span of its source text; literals keep their
text, so that numbers are converted, and refused, only when code is generated.
-/

namespace StackScript

/-- A constant as it is written. -/
inductive Literal
  | number (digits : String)
  | text (content : String)
  | bool (value : Bool)
  | null
deriving DecidableEq, Repr, Inhabited

/-- How an assignment gets its value: as it is, or combined with the old one. -/
inductive Assignment
  | set
  | update (op : Operator)
deriving DecidableEq, Repr, Inhabited

mutual

/-- An expression. -/
inductive Expr
  | literal (value : Literal)
  | name (name : String)
  | binary (op : Operator) (left right : Expr)
  | logical (op : LogicalOperator) (left right : Expr)
  | assign (name : String) (how : Assignment) (value : Expr)
  | call (callee : Expr) (args : List Expr)
  | function (params : List String) (body : List Stmt)

/-- A statement with its span. -/
inductive Stmt
  | block (span : Span) (body : List Stmt)
  | branch (span : Span) (condition : Expr) (yes : Stmt) (no : Option Stmt)
  | ret (span : Span) (value : Option Expr)
  | define (span : Span) (name : String) (value : Option Expr)
  | discard (span : Span) (value : Expr)

end

instance : Inhabited Expr := ⟨.literal .null⟩

instance : Inhabited Stmt := ⟨.ret Span.unknown none⟩

/-- A whole script: its statements in source order. -/
structure Script where
  statements : List Stmt
deriving Inhabited

namespace Stmt

/-- The source text of the statement. -/
def span : Stmt → Span
  | .block span _ => span
  | .branch span _ _ _ => span
  | .ret span _ => span
  | .define span _ _ => span
  | .discard span _ => span

/-- A block has braces of its own. -/
def isBlock : Stmt → Bool
  | .block _ _ => true
  | _ => false

mutual

/-- Control cannot pass the statement: it is a return, a block that holds a statement that
always returns, or a branch both of whose sides do.
-/
def alwaysReturns : Stmt → Bool
  | .ret _ _ => true
  | .block _ body => anyReturns body
  | .branch _ _ yes (some no) => alwaysReturns yes && alwaysReturns no
  | _ => false

/-- One of the statements always returns. -/
def anyReturns : List Stmt → Bool
  | [] => false
  | statement :: rest => alwaysReturns statement || anyReturns rest

end

end Stmt

mutual

/-- The statements inside an expression, in source order. -/
def Expr.inner : Expr → List Stmt
  | .literal _ => []
  | .name _ => []
  | .binary _ left right => left.inner ++ right.inner
  | .logical _ left right => left.inner ++ right.inner
  | .assign _ _ value => value.inner
  | .call callee args => callee.inner ++ innerOfArgs args
  | .function _ body => flattened body

/-- The statements inside a list of arguments. -/
def innerOfArgs : List Expr → List Stmt
  | [] => []
  | arg :: rest => arg.inner ++ innerOfArgs rest

/-- A statement and the statements inside it, each before those inside it. -/
def Stmt.flatten : Stmt → List Stmt
  | .block span body => .block span body :: flattened body
  | .branch span condition yes none =>
      .branch span condition yes none :: (condition.inner ++ yes.flatten)
  | .branch span condition yes (some no) =>
      .branch span condition yes (some no) :: (condition.inner ++ yes.flatten ++ no.flatten)
  | .ret span none => [.ret span none]
  | .ret span (some value) => .ret span (some value) :: value.inner
  | .define span name none => [.define span name none]
  | .define span name (some value) => .define span name (some value) :: value.inner
  | .discard span value => .discard span value :: value.inner

/-- The statements of a list and the statements inside them. -/
def flattened : List Stmt → List Stmt
  | [] => []
  | statement :: rest => statement.flatten ++ flattened rest

end

end StackScript

import StackScript.Tree.Basic

/-! Statements inside statements. The statements inside a statement are its outermost ones and
those inside of these.
-/

namespace StackScript

mutual

/-- The outermost statements inside an expression, in source order. -/
def Expr.outermost : Expr → List Stmt
  | .literal _ => []
  | .name _ => []
  | .binary _ left right => left.outermost ++ right.outermost
  | .logical _ left right => left.outermost ++ right.outermost
  | .assign _ _ value => value.outermost
  | .call callee args => callee.outermost ++ outermostOfArgs args
  | .function _ body => body

/-- The outermost statements inside a list of arguments, in source order. -/
def outermostOfArgs : List Expr → List Stmt
  | [] => []
  | arg :: rest => arg.outermost ++ outermostOfArgs rest

end

/-- The outermost statements inside a statement, in source order. -/
def Stmt.outermost : Stmt → List Stmt
  | .block _ body => body
  | .branch _ condition yes none => condition.outermost ++ [yes]
  | .branch _ condition yes (some no) => condition.outermost ++ [yes, no]
  | .ret _ none => []
  | .ret _ (some value) => value.outermost
  | .define _ _ none => []
  | .define _ _ (some value) => value.outermost
  | .discard _ value => value.outermost

theorem flattened_eq (stmts : List Stmt) : flattened stmts = stmts.flatMap Stmt.flatten := by
  induction stmts with
  | nil => rw [flattened, List.flatMap_nil]
  | cons stmt stmts ih => rw [flattened, List.flatMap_cons, ih]

theorem flattened_append (stmts more : List Stmt)
    : flattened (stmts ++ more) = flattened stmts ++ flattened more := by
  simp only [flattened_eq, List.flatMap_append]

theorem mem_flattened {part : Stmt} {stmts : List Stmt}
    : part ∈ flattened stmts ↔ ∃ stmt ∈ stmts, part ∈ stmt.flatten := by
  rw [flattened_eq, List.mem_flatMap]

mutual

theorem Expr.inner_eq (expr : Expr) : expr.inner = flattened expr.outermost := by
  cases expr with
  | literal value => rw [Expr.inner, Expr.outermost, flattened]
  | name name => rw [Expr.inner, Expr.outermost, flattened]
  | binary op left right =>
      rw [Expr.inner, Expr.outermost, flattened_append, left.inner_eq, right.inner_eq]
  | logical op left right =>
      rw [Expr.inner, Expr.outermost, flattened_append, left.inner_eq, right.inner_eq]
  | assign name how value => rw [Expr.inner, Expr.outermost, value.inner_eq]
  | call callee args =>
      rw [Expr.inner, Expr.outermost, flattened_append, callee.inner_eq, innerOfArgs_eq]
  | function params body => rw [Expr.inner, Expr.outermost]

theorem innerOfArgs_eq (args : List Expr)
    : innerOfArgs args = flattened (outermostOfArgs args) := by
  cases args with
  | nil => rw [innerOfArgs, outermostOfArgs, flattened]
  | cons arg rest =>
      rw [innerOfArgs, outermostOfArgs, flattened_append, arg.inner_eq, innerOfArgs_eq]

end

/-- A statement comes before its outermost statements and those inside of them. -/
theorem Stmt.flatten_eq (stmt : Stmt) : stmt.flatten = stmt :: flattened stmt.outermost := by
  cases stmt with
  | block span body => rw [flatten, outermost]
  | branch span condition yes no =>
      cases no <;> simp [flatten, outermost, flattened_append, flattened, condition.inner_eq]
  | ret span value => cases value <;> simp [flatten, outermost, flattened, Expr.inner_eq]
  | define span name value =>
      cases value <;> simp [flatten, outermost, flattened, Expr.inner_eq]
  | discard span value => rw [flatten, outermost, value.inner_eq]

end StackScript

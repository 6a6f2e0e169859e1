import StackScript.Proofs.Json.CompactText
import StackScript.Proofs.Tree.Rereading

/-! Trees survive their JSON text. What is read back is the tree with unknown spans, which is
written as the same text and compiles to the same program or fails with the same error.
-/

namespace StackScript

open Json (Plain)

theorem Json.Plain.node (kind : String) {parts : Json} (plain : parts.Plain)
    : (Json.node kind parts).Plain := by
  refine .object (by simp) ?_
  rw [List.forall_mem_singleton]
  exact plain

theorem Literal.plain_toJson (value : Literal) : value.toJson.Plain := by
  cases value with
  | number digits => exact .node _ (.string digits)
  | text content => exact .node _ (.string content)
  | bool value => exact .node _ (.bool value)
  | null => exact .string _

theorem Assignment.plain_toJson (how : Assignment) : how.toJson.Plain := by
  cases how with
  | set => exact .string _
  | update op => exact .node _ (.string _)

theorem Json.plain_strings (texts : List String) : (Json.array (texts.map .string)).Plain := by
  refine .array fun item member => ?_
  obtain ⟨text, -, rfl⟩ := List.mem_map.mp member
  exact .string text

mutual

theorem Expr.plain_toJson (expr : Expr) : expr.toJson.Plain := by
  cases expr with
  | literal value => exact .node _ value.plain_toJson
  | name name => exact .node _ (.string name)
  | binary op left right =>
      refine .node _ (.object (by simp) ?_)
      simp only [List.forall_mem_cons]
      exact ⟨.string _, Expr.plain_toJson left, Expr.plain_toJson right, nofun⟩
  | logical op left right =>
      refine .node _ (.object (by simp) ?_)
      simp only [List.forall_mem_cons]
      exact ⟨.string _, Expr.plain_toJson left, Expr.plain_toJson right, nofun⟩
  | assign name how value =>
      refine .node _ (.object (by simp) ?_)
      simp only [List.forall_mem_cons]
      exact ⟨.string _, how.plain_toJson, Expr.plain_toJson value, nofun⟩
  | call callee args =>
      refine .node _ (.object (by simp) ?_)
      simp only [List.forall_mem_cons]
      exact ⟨Expr.plain_toJson callee, .array (plain_exprsToJson args), nofun⟩
  | function params body =>
      refine .node _ (.object (by simp) ?_)
      simp only [List.forall_mem_cons]
      exact ⟨Json.plain_strings params, .array (plain_stmtsToJson body), nofun⟩
termination_by structural expr

theorem plain_exprsToJson (exprs : List Expr) : ∀ item ∈ exprsToJson exprs, item.Plain := by
  cases exprs with
  | nil => nofun
  | cons expr rest =>
      rw [exprsToJson, List.forall_mem_cons]
      exact ⟨Expr.plain_toJson expr, plain_exprsToJson rest⟩
termination_by structural exprs

theorem Stmt.plain_toJson (statement : Stmt) : statement.toJson.Plain := by
  cases statement with
  | block span body => exact .node _ (.array (plain_stmtsToJson body))
  | branch span condition yes no =>
      refine .node _ (.object (by simp) ?_)
      simp only [List.forall_mem_cons]
      exact ⟨Expr.plain_toJson condition, Stmt.plain_toJson yes, plain_stmtToJson? no, nofun⟩
  | ret span value => exact .node _ (plain_exprToJson? value)
  | define span name value =>
      refine .node _ (.object (by simp) ?_)
      simp only [List.forall_mem_cons]
      exact ⟨.string name, plain_exprToJson? value, nofun⟩
  | discard span value => exact .node _ (Expr.plain_toJson value)
termination_by structural statement

theorem plain_stmtToJson? (statement : Option Stmt) : (stmtToJson? statement).Plain := by
  cases statement with
  | none => exact .null
  | some statement => exact Stmt.plain_toJson statement
termination_by structural statement

theorem plain_exprToJson? (expr : Option Expr) : (exprToJson? expr).Plain := by
  cases expr with
  | none => exact .null
  | some expr => exact Expr.plain_toJson expr
termination_by structural expr

theorem plain_stmtsToJson (statements : List Stmt)
    : ∀ item ∈ stmtsToJson statements, item.Plain := by
  cases statements with
  | nil => nofun
  | cons statement rest =>
      rw [stmtsToJson, List.forall_mem_cons]
      exact ⟨Stmt.plain_toJson statement, plain_stmtsToJson rest⟩
termination_by structural statements

end

/-- The JSON form of a script has no numbers, and no field twice in one object. -/
theorem Script.plain_toJson (script : Script) : script.toJson.Plain := by
  refine .object (by simp) ?_
  rw [List.forall_mem_singleton]
  exact .array (plain_stmtsToJson script.statements)

/-- A script that is read back from its text is the script with unknown spans. It is written as
the same text again, and it compiles to the same program or fails with the same error.
-/
theorem Script.read_write {write : Json → String} {read : String → Option Json} {limit : Nat}
    (faithful : Json.Faithful write read limit) (script : Script)
    (within : script.toJson.nesting ≤ limit)
    : ∃ back : Script,
        (read (write script.toJson)).bind Script.ofJson? = some back
        ∧ back = script.withoutSpans
        ∧ write back.toJson = write script.toJson
        ∧ back.compile = script.compile := by
  refine ⟨script.withoutSpans, ?_, rfl, ?_, script.compile_withoutSpans⟩
  · rw [faithful.read_write _ script.plain_toJson within]
    exact script.ofJson?_toJson
  · rw [script.toJson_withoutSpans]

/-- A script with text that needs escapes and a missing value, read back from its text on one
line with at most 127 brackets nested.
-/
theorem Script.read_write_compact
    : let script : Script :=
        ⟨[.define ⟨0, 12⟩ "x" none,
          .block ⟨12, 30⟩ [.discard ⟨13, 29⟩ (.call (.name "print") [.literal (.text "a\"\n")])]]⟩
      script.toJson.nesting ≤ 127
      ∧ ∃ back,
        (Json.readCompact 127 script.toJson.compact).bind Script.ofJson? = some back
        ∧ back = script.withoutSpans
        ∧ back.toJson.compact = script.toJson.compact
        ∧ back.compile = script.compile :=
  ⟨by decide, Script.read_write (Json.faithful_compact 127) _ (by decide)⟩

end StackScript

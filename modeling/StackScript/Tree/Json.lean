import StackScript.Json.Basic
import StackScript.Tree.Basic

/-! The JSON form of trees. A node is an object whose one field is named for the kind of the
node; a kind without parts is its name alone. The parts are an object, of which a reader
takes the fields it knows, in any order. Only a whole script may also be given as an array
of its parts, of which it has one. Spans are not written, and a tree that was read has
unknown spans.
-/

namespace StackScript

/-- A node of the named kind. -/
def Json.node (kind : String) (parts : Json) : Json :=
  .object [(kind, parts)]

/-- Writes a literal. -/
def Literal.toJson : Literal → Json
  | .number digits => .node "Numeric" (.string digits)
  | .text content => .node "Text" (.string content)
  | .bool value => .node "Bool" (.bool value)
  | .null => .string "Null"

/-- Writes the way an assignment gets its value. -/
def Assignment.toJson : Assignment → Json
  | .set => .string "Set"
  | .update op => .node "Compound" (.string op.treeName)

mutual

/-- Writes an expression. -/
def Expr.toJson : Expr → Json
  | .literal value => .node "Literal" value.toJson
  | .name name => .node "Ident" (.string name)
  | .binary op left right =>
      .node "Binary"
        (.object [("op", .string op.treeName), ("left", left.toJson), ("right", right.toJson)])
  | .logical op left right =>
      .node "Logical"
        (.object [("op", .string op.treeName), ("left", left.toJson), ("right", right.toJson)])
  | .assign name how value =>
      .node "Assign"
        (.object [("name", .string name), ("op", how.toJson), ("value", value.toJson)])
  | .call callee args =>
      .node "Call" (.object [("callee", callee.toJson), ("args", .array (exprsToJson args))])
  | .function params body =>
      .node "Function"
        (.object
          [("params", .array (params.map .string)), ("body", .array (stmtsToJson body))])

/-- Writes the expressions of a list. -/
def exprsToJson : List Expr → List Json
  | [] => []
  | expr :: rest => expr.toJson :: exprsToJson rest

/-- Writes a statement. -/
def Stmt.toJson : Stmt → Json
  | .block _ body => .node "Block" (.array (stmtsToJson body))
  | .branch _ condition yes no =>
      .node "If"
        (.object
          [("condition", condition.toJson), ("then_branch", yes.toJson),
            ("else_branch", stmtToJson? no)])
  | .ret _ value => .node "Return" (exprToJson? value)
  | .define _ name value =>
      .node "Let" (.object [("name", .string name), ("value", exprToJson? value)])
  | .discard _ value => .node "Expr" value.toJson

/-- Writes a statement that may be missing. -/
def stmtToJson? : Option Stmt → Json
  | none => .null
  | some statement => statement.toJson

/-- Writes an expression that may be missing. -/
def exprToJson? : Option Expr → Json
  | none => .null
  | some expr => expr.toJson

/-- Writes the statements of a list. -/
def stmtsToJson : List Stmt → List Json
  | [] => []
  | statement :: rest => statement.toJson :: stmtsToJson rest

end

/-- Writes a script. -/
def Script.toJson (script : Script) : Json :=
  .object [("statements", .array (stmtsToJson script.statements))]

namespace Json

/-- The name of a kind without parts; its parts may be given as null. -/
def unit? : Json → Option String
  | .string kind => some kind
  | .object [(kind, .null)] => some kind
  | _ => none

/-- The kind of a node and its parts, which are smaller than the node. -/
def node? : (json : Json) → Option (String × { parts : Json // sizeOf parts < sizeOf json })
  | .object [(kind, parts)] => some (kind, ⟨parts, by simp; omega⟩)
  | _ => none

/-- The value of a field is smaller than the object. -/
theorem sizeOf_field?_lt {name : String} {fields : List (String × Json)} {value : Json}
    (found : field? name fields = some value)
    : sizeOf value < sizeOf (Json.object fields) := by
  obtain ⟨entry, here, rfl⟩ := Option.map_eq_some_iff.mp found
  have outer := List.sizeOf_lt_of_mem (List.mem_of_find?_eq_some here)
  have inner : sizeOf entry = 1 + sizeOf entry.1 + sizeOf entry.2 := by
    cases entry; rfl
  simp only [Json.object.sizeOf_spec]
  omega

/-- Null is smaller than every object. -/
theorem sizeOf_null_lt (fields : List (String × Json))
    : sizeOf Json.null < sizeOf (Json.object fields) := by
  have : 0 < sizeOf fields := by
    cases fields with
    | nil => simp
    | cons head tail =>
        simp only [List.cons.sizeOf_spec]
        omega
  simp only [Json.null.sizeOf_spec, Json.object.sizeOf_spec]
  omega

/-- A part that must be given. -/
def part? (name : String) : (parts : Json) → Option { part : Json // sizeOf part < sizeOf parts }
  | .object fields =>
      match found : field? name fields with
      | some value => some ⟨value, sizeOf_field?_lt found⟩
      | none => none
  | _ => none

/-- A part that may be left out; a missing part is null. -/
def optionalPart? (name : String)
    : (parts : Json) → Option { part : Json // sizeOf part < sizeOf parts }
  | .object fields =>
      match found : field? name fields with
      | some value => some ⟨value, sizeOf_field?_lt found⟩
      | none => some ⟨.null, sizeOf_null_lt fields⟩
  | _ => none

/-- The texts of an array of strings. -/
def strings? : Json → Option (List String)
  | .array items =>
      items.mapM fun item =>
        match item with
        | .string text => some text
        | _ => none
  | _ => none

end Json

/-- Reads a literal. -/
def Literal.ofJson? (json : Json) : Option Literal :=
  match json.node? with
  | some ("Numeric", ⟨.string digits, _⟩) => some (.number digits)
  | some ("Text", ⟨.string content, _⟩) => some (.text content)
  | some ("Bool", ⟨.bool value, _⟩) => some (.bool value)
  | _ => if json.unit? = some "Null" then some .null else none

/-- Reads an operator. -/
def Operator.ofJson? (json : Json) : Option Operator :=
  json.unit?.bind Operator.ofTreeName?

/-- Reads a logical operator. -/
def LogicalOperator.ofJson? (json : Json) : Option LogicalOperator :=
  json.unit?.bind LogicalOperator.ofTreeName?

/-- Reads the way an assignment gets its value. -/
def Assignment.ofJson? (json : Json) : Option Assignment :=
  match json.node? with
  | some ("Compound", ⟨op, _⟩) => (Operator.ofJson? op).map .update
  | _ => if json.unit? = some "Set" then some .set else none

mutual

/-- Reads an expression. -/
def Expr.ofJson? (json : Json) : Option Expr :=
  match json.node? with
  | some ("Literal", ⟨value, _⟩) => (Literal.ofJson? value).map .literal
  | some ("Ident", ⟨.string name, _⟩) => some (.name name)
  | some ("Binary", ⟨parts, _⟩) => do
      let ⟨op, _⟩ ← parts.part? "op"
      let ⟨left, _⟩ ← parts.part? "left"
      let ⟨right, _⟩ ← parts.part? "right"
      return .binary (← Operator.ofJson? op) (← Expr.ofJson? left) (← Expr.ofJson? right)
  | some ("Logical", ⟨parts, _⟩) => do
      let ⟨op, _⟩ ← parts.part? "op"
      let ⟨left, _⟩ ← parts.part? "left"
      let ⟨right, _⟩ ← parts.part? "right"
      return .logical (← LogicalOperator.ofJson? op) (← Expr.ofJson? left)
        (← Expr.ofJson? right)
  | some ("Assign", ⟨parts, _⟩) => do
      let ⟨.string name, _⟩ ← parts.part? "name" | none
      let ⟨how, _⟩ ← parts.part? "op"
      let ⟨value, _⟩ ← parts.part? "value"
      return .assign name (← Assignment.ofJson? how) (← Expr.ofJson? value)
  | some ("Call", ⟨parts, _⟩) => do
      let ⟨callee, _⟩ ← parts.part? "callee"
      let ⟨.array args, _⟩ ← parts.part? "args" | none
      return .call (← Expr.ofJson? callee) (← exprsOfJson? args)
  | some ("Function", ⟨parts, _⟩) => do
      let ⟨params, _⟩ ← parts.part? "params"
      let ⟨.array body, _⟩ ← parts.part? "body" | none
      return .function (← params.strings?) (← stmtsOfJson? body)
  | _ => none
termination_by 2 * sizeOf json
decreasing_by all_goals first | omega | (simp only [Json.array.sizeOf_spec] at *; omega)

/-- Reads the expressions of a list. -/
def exprsOfJson? : List Json → Option (List Expr)
  | [] => some []
  | item :: rest => do return (← Expr.ofJson? item) :: (← exprsOfJson? rest)
termination_by items => 2 * sizeOf items

/-- Reads a statement. -/
def Stmt.ofJson? (json : Json) : Option Stmt :=
  match json.node? with
  | some ("Block", ⟨.array body, _⟩) => do
      return .block Span.unknown (← stmtsOfJson? body)
  | some ("If", ⟨parts, _⟩) => do
      let ⟨condition, _⟩ ← parts.part? "condition"
      let ⟨yes, _⟩ ← parts.part? "then_branch"
      let ⟨no, _⟩ ← parts.optionalPart? "else_branch"
      return .branch Span.unknown (← Expr.ofJson? condition) (← Stmt.ofJson? yes)
        (← stmtOrNull? no)
  | some ("Return", ⟨value, _⟩) => do return .ret Span.unknown (← exprOrNull? value)
  | some ("Let", ⟨parts, _⟩) => do
      let ⟨.string name, _⟩ ← parts.part? "name" | none
      let ⟨value, _⟩ ← parts.optionalPart? "value"
      return .define Span.unknown name (← exprOrNull? value)
  | some ("Expr", ⟨value, _⟩) => do return .discard Span.unknown (← Expr.ofJson? value)
  | _ => none
termination_by 2 * sizeOf json
decreasing_by all_goals first | omega | (simp only [Json.array.sizeOf_spec] at *; omega)

/-- Reads an expression that may be missing. -/
def exprOrNull? : Json → Option (Option Expr)
  | .null => some none
  | json => (Expr.ofJson? json).map some
termination_by json => 2 * sizeOf json + 1

/-- Reads a statement that may be missing. -/
def stmtOrNull? : Json → Option (Option Stmt)
  | .null => some none
  | json => (Stmt.ofJson? json).map some
termination_by json => 2 * sizeOf json + 1

/-- Reads the statements of a list. -/
def stmtsOfJson? : List Json → Option (List Stmt)
  | [] => some []
  | item :: rest => do return (← Stmt.ofJson? item) :: (← stmtsOfJson? rest)
termination_by items => 2 * sizeOf items

end

/-- Reads a script. -/
def Script.ofJson? (json : Json) : Option Script := do
  let statements ←
    match json with
    | .object fields => Json.field? "statements" fields
    | .array [statements] => some statements
    | _ => none
  let .array items := statements | none
  return ⟨← stmtsOfJson? items⟩

end StackScript

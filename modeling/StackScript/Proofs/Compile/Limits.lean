import StackScript.Proofs.Compile.GlobalTable
import StackScript.Proofs.Compile.Sizes

/-! The limits of compiled scripts, told from the tree alone. They count what the statements
that can be reached ask for; statements of a block behind one that always returns have no code
and break no limit.
-/

namespace StackScript

-----------------------------------------------------------------------------------------
-- Nodes
-----------------------------------------------------------------------------------------

/-- A node of a tree that has code, and the names of the locals that are alive before it, the
latest first. A statement may stand in a scope or outside all of them.
-/
inductive Node
  | expression (locals : List String) (expression : Expr)
  | statement (inScope : Bool) (locals : List String) (statement : Stmt)

mutual

/-- The nodes of an expression. A function has locals of its own. -/
def Expr.nodes (locals : List String) : Expr → List Node
  | .literal value => [.expression locals (.literal value)]
  | .name name => [.expression locals (.name name)]
  | .binary op left right =>
      .expression locals (.binary op left right) :: (left.nodes locals ++ right.nodes locals)
  | .logical op left right =>
      .expression locals (.logical op left right) :: (left.nodes locals ++ right.nodes locals)
  | .assign name how value => .expression locals (.assign name how value) :: value.nodes locals
  | .call callee args =>
      .expression locals (.call callee args) :: (callee.nodes locals ++ nodesOfArgs locals args)
  | .function params body =>
      .expression locals (.function params body) :: nodesOfBody params.reverse body

def nodesOfArgs (locals : List String) : List Expr → List Node
  | [] => []
  | arg :: rest => arg.nodes locals ++ nodesOfArgs locals rest

/-- The nodes of a statement. -/
def Stmt.nodes (inScope : Bool) (locals : List String) : Stmt → List Node
  | .block span body => .statement inScope locals (.block span body) :: nodesOfBody locals body
  | .branch span condition yes none =>
      .statement inScope locals (.branch span condition yes none)
        :: (condition.nodes locals ++ yes.nodes inScope locals)
  | .branch span condition yes (some no) =>
      .statement inScope locals (.branch span condition yes (some no))
        :: (condition.nodes locals ++ (yes.nodes inScope locals ++ no.nodes inScope locals))
  | .ret span none => [.statement inScope locals (.ret span none)]
  | .ret span (some value) =>
      .statement inScope locals (.ret span (some value)) :: value.nodes locals
  | .define span name none => [.statement inScope locals (.define span name none)]
  | .define span name (some value) =>
      .statement inScope locals (.define span name (some value)) :: value.nodes locals
  | .discard span value => .statement inScope locals (.discard span value) :: value.nodes locals

/-- The nodes of the statements of a block that can be reached. -/
def nodesOfBody (locals : List String) : List Stmt → List Node
  | [] => []
  | statement :: rest =>
      if statement.alwaysReturns then statement.nodes true locals
      else
        statement.nodes true locals ++ nodesOfBody (statement.localNames true ++ locals) rest

end

/-- The nodes of a script that have code. -/
def Script.nodes (script : Script) : List Node :=
  script.statements.flatMap (Stmt.nodes false [])

/-- The text that a node writes down as a literal. -/
def Node.text? : Node → Option String
  | .expression _ (.literal (.text content)) => some content
  | _ => none

/-- The texts of the literals that have code. -/
def Script.texts (script : Script) : List String :=
  script.nodes.filterMap Node.text?

/-- The mentions of globals that have code. -/
def Script.mentions (script : Script) : List String :=
  script.statements.flatMap (Stmt.mentions false [])

-----------------------------------------------------------------------------------------
-- Broken limits
-----------------------------------------------------------------------------------------

/-- The node has a jump over so many bytes of code: over the right operand of a logical operator,
with the pop before it, or over a side of a branch, with the jump behind it if there is one.
-/
inductive Node.Skips : Node → Nat → Prop
  | operand {locals : List String} {op : LogicalOperator} {left right : Expr}
    : Skips (.expression locals (.logical op left right)) (1 + right.size)
  | onlySide {inScope : Bool} {locals : List String} {span : Span} {condition : Expr}
    {yes : Stmt}
    : Skips (.statement inScope locals (.branch span condition yes none)) (yes.sideSize inScope)
  | firstSide {inScope : Bool} {locals : List String} {span : Span} {condition : Expr}
    {yes no : Stmt}
    : Skips (.statement inScope locals (.branch span condition yes (some no)))
        (yes.sideSize inScope + if yes.alwaysReturns then 0 else 3)
  | secondSide {inScope : Bool} {locals : List String} {span : Span} {condition : Expr}
    {yes no : Stmt} (goesOn : yes.alwaysReturns = false)
    : Skips (.statement inScope locals (.branch span condition yes (some no)))
        (no.sideSize inScope)

/-- A node breaks a limit that does not depend on other nodes, or holds a number that means
nothing.
-/
inductive Node.Breaks : Node → CompileError → Prop
  | locals {locals : List String} {span : Span} {name : String} {value : Option Expr}
    (alive : 256 < (name :: locals).length)
    : Breaks (.statement true locals (.define span name value)) (.tooManyLocals name)
  | arguments {locals : List String} {callee : Expr} {args : List Expr}
    (many : 255 < args.length)
    : Breaks (.expression locals (.call callee args)) (.tooManyArguments args.length)
  | parameters {locals params : List String} {body : List Stmt} (many : 255 < params.length)
    : Breaks (.expression locals (.function params body)) (.tooManyParameters params.length)
  | jump {node : Node} {distance : Nat} (skips : node.Skips distance) (far : 65535 < distance)
    : Breaks node (.jumpTooLarge distance)
  | range {locals : List String} {text : String}
    (rejected : Literal.numeric text = .error (.longOutOfRange text))
    : Breaks (.expression locals (.literal (.number text))) (.longOutOfRange text)
  | malformed {locals : List String} {text : String}
    (rejected : Literal.numeric text = .error (.invalidLiteral text))
    : Breaks (.expression locals (.literal (.number text))) (.invalidLiteral text)

/-- The part of a script that has code breaks the limit that an error names. Scopes are never
closed that were not opened.
-/
def Script.Breaks (script : Script) : CompileError → Prop
  | .scopeUnderflow => False
  | .tooManyGlobals name =>
      name ∈ script.mentions ∧ 253 < (script.mentions.toFinset \ reservedGlobals.toFinset).card
  | .tooManyFunctions => 255 < script.literals.length
  | .tooManyStrings => 65536 < script.texts.toFinset.card
  | error => ∃ node ∈ script.nodes, node.Breaks error

end StackScript

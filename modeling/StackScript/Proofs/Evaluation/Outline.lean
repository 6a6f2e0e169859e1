import StackScript.Bytecode.Program
import StackScript.Tree.Basic

/-! What the numbers and names of a script stand for. Functions are numbered in the order in
which their literals end in the source text, and globals get slots in the order in which they
are first mentioned there. Statements of a block behind one that always returns do not count.
-/

namespace StackScript

/-- A function as it is written. -/
structure FunctionLiteral where
  params : List String
  body : List Stmt

-----------------------------------------------------------------------------------------
-- Function literals
-----------------------------------------------------------------------------------------

mutual

/-- The function literals in an expression, those inside a function before it. -/
def Expr.literals : Expr → List FunctionLiteral
  | .literal _ => []
  | .name _ => []
  | .binary _ left right => left.literals ++ right.literals
  | .logical _ left right => left.literals ++ right.literals
  | .assign _ _ value => value.literals
  | .call callee args => callee.literals ++ literalsOfArgs args
  | .function params body => literalsOfBody body ++ [⟨params, body⟩]

def literalsOfArgs : List Expr → List FunctionLiteral
  | [] => []
  | arg :: rest => arg.literals ++ literalsOfArgs rest

def Stmt.literals : Stmt → List FunctionLiteral
  | .block _ body => literalsOfBody body
  | .branch _ condition yes none => condition.literals ++ yes.literals
  | .branch _ condition yes (some no) => condition.literals ++ (yes.literals ++ no.literals)
  | .ret _ none => []
  | .ret _ (some value) => value.literals
  | .define _ _ none => []
  | .define _ _ (some value) => value.literals
  | .discard _ value => value.literals

/-- The function literals in the statements of a block that can be reached. -/
def literalsOfBody : List Stmt → List FunctionLiteral
  | [] => []
  | statement :: rest =>
      if statement.alwaysReturns then statement.literals
      else statement.literals ++ literalsOfBody rest

end

/-- The function literals of a script in the order of their numbers, from number one. -/
def Script.literals (script : Script) : List FunctionLiteral :=
  script.statements.flatMap Stmt.literals

-----------------------------------------------------------------------------------------
-- Globals
-----------------------------------------------------------------------------------------

/-- The names that the statement adds to the local ones behind it. -/
def Stmt.localNames (inScope : Bool) : Stmt → List String
  | .define _ name _ => if inScope then [name] else []
  | _ => []

/-- A name that is not that of a local means a global. -/
def mentionOf (locals : List String) (name : String) : List String :=
  if name ∈ locals then [] else [name]

mutual

/-- The mentions of globals in an expression among the given local names, in the order in
which they are carried out.
-/
def Expr.mentions (locals : List String) : Expr → List String
  | .literal _ => []
  | .name name => mentionOf locals name
  | .binary _ left right => left.mentions locals ++ right.mentions locals
  | .logical _ left right => left.mentions locals ++ right.mentions locals
  | .assign name .set value => value.mentions locals ++ mentionOf locals name
  | .assign name (.update _) value =>
      mentionOf locals name ++ (value.mentions locals ++ mentionOf locals name)
  | .call callee args => callee.mentions locals ++ mentionsOfArgs locals args
  | .function params body => mentionsOfBody params.reverse body

def mentionsOfArgs (locals : List String) : List Expr → List String
  | [] => []
  | arg :: rest => arg.mentions locals ++ mentionsOfArgs locals rest

/-- The mentions of globals in a statement. A definition outside all scopes is one. -/
def Stmt.mentions (inScope : Bool) (locals : List String) : Stmt → List String
  | .block _ body => mentionsOfBody locals body
  | .branch _ condition yes none =>
      condition.mentions locals ++ yes.mentions inScope locals
  | .branch _ condition yes (some no) =>
      condition.mentions locals ++ (yes.mentions inScope locals ++ no.mentions inScope locals)
  | .ret _ none => []
  | .ret _ (some value) => value.mentions locals
  | .define _ name none => if inScope then [] else [name]
  | .define _ name (some value) =>
      value.mentions locals ++ if inScope then [] else [name]
  | .discard _ value => value.mentions locals

/-- The mentions of globals in the statements of a block that can be reached. -/
def mentionsOfBody (locals : List String) : List Stmt → List String
  | [] => []
  | statement :: rest =>
      if statement.alwaysReturns then statement.mentions true locals
      else
        statement.mentions true locals
          ++ mentionsOfBody (statement.localNames true ++ locals) rest

end

/-- The names with further ones behind them, each at its first mention. -/
def enterNames (names : List String) (mentioned : List String) : List String :=
  mentioned.foldl (fun names name => if name ∈ names then names else names ++ [name]) names

/-- The globals of a script in the order of their slots, from slot one. -/
def Script.globals (script : Script) : List String :=
  enterNames reservedGlobals (script.statements.flatMap (Stmt.mentions false []))

/-- The slot of a global of a script. -/
def Script.slot (script : Script) (name : String) : UInt8 :=
  UInt8.ofNat (script.globals.idxOf name + 1)

end StackScript

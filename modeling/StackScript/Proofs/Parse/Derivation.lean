import StackScript.Parse.Grammar

/-! The grammar of the language, as derivations of trees from tokens, and without any order of
reading. A rule that repeats a phrase to the right of another one, as chains of operators and
rows of calls do, is written with the longer phrase on the left, which makes it group from the
left:

    statement*   := nothing | statement statement*
    statement    := block | if | return | let | expr ';'
    block        := '{' statement* '}'
    if           := 'if' '(' expr ')' statement ('else' statement)?
    return       := 'return' expr? ';'
    let          := 'let' NAME ('=' expr)? ';'
    expr         := NAME ('=' | '+=' | '-=' | '*=' | '/=' | '%=') expr | chain of the last level
    chain        := call, at level 0
                  | chain of the level below
                  | chain (operator of the level below) chain of the level below
    call         := primary | call '(' (expr (',' expr)*)? ')'
    primary      := LITERAL | NAME | '(' expr ')'
                  | 'function' '(' (NAME (',' NAME)*)? ')' block

An `else` belongs to the nearest `if`: a statement before an `else` does not end with an `if`
that has none.
-/

namespace StackScript

-----------------------------------------------------------------------------------------
-- Spellings
-----------------------------------------------------------------------------------------

/-- The token that spells a literal. -/
def Literal.token : Literal → Token
  | .number digits => .number digits
  | .text content => .text content
  | .bool true => .keyword .trueWord
  | .bool false => .keyword .falseWord
  | .null => .keyword .nullWord

namespace Parse.Joint

/-- The token that spells an operator. -/
def token : Joint → Token
  | .binary op => .operator op
  | .logical .and => .mark .andAnd
  | .logical .or => .mark .orOr

/-- How loosely an operator binds, zero for the tightest. -/
def level : Joint → Nat
  | .binary .multiply => 0
  | .binary .divide => 0
  | .binary .remainder => 0
  | .binary .add => 1
  | .binary .subtract => 1
  | .binary .less => 2
  | .binary .lessOrEqual => 2
  | .binary .greater => 2
  | .binary .greaterOrEqual => 2
  | .binary .equal => 3
  | .binary .notEqual => 3
  | .logical .and => 4
  | .logical .or => 5

end Parse.Joint

/-- The span from the first of some tokens to the last. -/
def covering (read : List Lexeme) : Span :=
  match read.head?, read.getLast? with
  | some first, some last => first.span.merge last.span
  | _, _ => Span.unknown

/-- A statement ends with an `if` that an `else` behind it would belong to. -/
def Stmt.endsOpen : Stmt → Bool
  | .branch _ _ _ none => true
  | .branch _ _ _ (some no) => no.endsOpen
  | _ => false

-----------------------------------------------------------------------------------------
-- Derivations
-----------------------------------------------------------------------------------------

namespace Grammar

/-- One or more names with commas between them. -/
inductive Names : List Lexeme → List String → Prop
  | last {name : String} {a : Span} : Names [⟨.name name, a⟩] [name]
  | more {name : String} {names : List String} {a b : Span} {read : List Lexeme}
      (others : Names read names)
      : Names (⟨.name name, a⟩ :: ⟨.mark .comma, b⟩ :: read) (name :: names)

/-- The parameters of a function with their parentheses. -/
inductive Parameters : List Lexeme → List String → Prop
  | empty {a b : Span} : Parameters [⟨.mark .leftParen, a⟩, ⟨.mark .rightParen, b⟩] []
  | names {params : List String} {a b : Span} {read : List Lexeme} (inner : Names read params)
      : Parameters (⟨.mark .leftParen, a⟩ :: (read ++ [⟨.mark .rightParen, b⟩])) params

mutual

/-- The statements of a script or of a block. -/
inductive Statements : List Lexeme → List Stmt → Prop
  | nil : Statements [] []
  | cons {stmt : Stmt} {stmts : List Stmt} {read more : List Lexeme}
      (first : Statement read stmt) (others : Statements more stmts)
      : Statements (read ++ more) (stmt :: stmts)

/-- A statement, whose span covers its tokens. -/
inductive Statement : List Lexeme → Stmt → Prop
  | block {body : List Stmt} {read : List Lexeme} (inner : Block read body)
      : Statement read (.block (covering read) body)
  | branch {condition : Expr} {yes : Stmt} {a b c : Span} {read test side : List Lexeme}
      (tested : Expression test condition)
      (first : Statement side yes)
      (whole : read
        = ⟨.keyword .ifWord, a⟩ :: ⟨.mark .leftParen, b⟩
          :: (test ++ ⟨.mark .rightParen, c⟩ :: side))
      : Statement read (.branch (covering read) condition yes none)
  | branchElse {condition : Expr} {yes no : Stmt} {a b c d : Span}
      {read test side other : List Lexeme}
      (tested : Expression test condition)
      (first : Statement side yes)
      (closed : yes.endsOpen = false)
      (second : Statement other no)
      (whole : read
        = ⟨.keyword .ifWord, a⟩ :: ⟨.mark .leftParen, b⟩
          :: (test ++ ⟨.mark .rightParen, c⟩ :: (side ++ ⟨.keyword .elseWord, d⟩ :: other)))
      : Statement read (.branch (covering read) condition yes (some no))
  | retNothing {a b : Span} {read : List Lexeme}
      (whole : read = [⟨.keyword .returnWord, a⟩, ⟨.mark .semicolon, b⟩])
      : Statement read (.ret (covering read) none)
  | ret {value : Expr} {a b : Span} {read inner : List Lexeme}
      (result : Expression inner value)
      (whole : read = ⟨.keyword .returnWord, a⟩ :: (inner ++ [⟨.mark .semicolon, b⟩]))
      : Statement read (.ret (covering read) (some value))
  | declare {name : String} {a b c : Span} {read : List Lexeme}
      (whole : read = [⟨.keyword .letWord, a⟩, ⟨.name name, b⟩, ⟨.mark .semicolon, c⟩])
      : Statement read (.define (covering read) name none)
  | define {name : String} {value : Expr} {a b c d : Span} {read inner : List Lexeme}
      (initial : Expression inner value)
      (whole : read
        = ⟨.keyword .letWord, a⟩ :: ⟨.name name, b⟩ :: ⟨.mark .assign, c⟩
          :: (inner ++ [⟨.mark .semicolon, d⟩]))
      : Statement read (.define (covering read) name (some value))
  | discard {value : Expr} {a : Span} {read inner : List Lexeme}
      (result : Expression inner value)
      (whole : read = inner ++ [⟨.mark .semicolon, a⟩])
      : Statement read (.discard (covering read) value)

/-- Statements between braces. -/
inductive Block : List Lexeme → List Stmt → Prop
  | braces {body : List Stmt} {a b : Span} {inner : List Lexeme} (stmts : Statements inner body)
      : Block (⟨.mark .leftBrace, a⟩ :: (inner ++ [⟨.mark .rightBrace, b⟩])) body

/-- An expression. Assignments group from the right. -/
inductive Expression : List Lexeme → Expr → Prop
  | set {name : String} {value : Expr} {a b : Span} {read : List Lexeme}
      (right : Expression read value)
      : Expression (⟨.name name, a⟩ :: ⟨.mark .assign, b⟩ :: read) (.assign name .set value)
  | update {name : String} {op : Update} {value : Expr} {a b : Span} {read : List Lexeme}
      (right : Expression read value)
      : Expression (⟨.name name, a⟩ :: ⟨.update op, b⟩ :: read)
          (.assign name (.update op.operator) value)
  | chain {e : Expr} {read : List Lexeme} (operands : Chain Parse.levels read e)
      : Expression read e

/-- Operands joined by operators of the levels below the given one. Operators of one level
group from the left, and those of a lower level bind tighter.
-/
inductive Chain : Nat → List Lexeme → Expr → Prop
  | call {e : Expr} {read : List Lexeme} (operand : Call read e) : Chain 0 read e
  | tighter {level : Nat} {e : Expr} {read : List Lexeme} (operand : Chain level read e)
      : Chain (level + 1) read e
  | join {level : Nat} {joint : Parse.Joint} {left right : Expr} {a : Span}
      {read more : List Lexeme}
      (first : Chain (level + 1) read left)
      (known : joint.level = level)
      (second : Chain level more right)
      : Chain (level + 1) (read ++ ⟨joint.token, a⟩ :: more) (joint.join left right)

/-- A primary expression and the calls behind it. -/
inductive Call : List Lexeme → Expr → Prop
  | primary {e : Expr} {read : List Lexeme} (operand : Primary read e) : Call read e
  | noArguments {callee : Expr} {a b : Span} {read : List Lexeme} (called : Call read callee)
      : Call (read ++ [⟨.mark .leftParen, a⟩, ⟨.mark .rightParen, b⟩]) (.call callee [])
  | arguments {callee : Expr} {args : List Expr} {a b : Span} {read inner : List Lexeme}
      (called : Call read callee) (passed : Arguments inner args)
      : Call (read ++ ⟨.mark .leftParen, a⟩ :: (inner ++ [⟨.mark .rightParen, b⟩]))
          (.call callee args)

/-- One or more expressions with commas between them. -/
inductive Arguments : List Lexeme → List Expr → Prop
  | last {e : Expr} {read : List Lexeme} (argument : Expression read e) : Arguments read [e]
  | more {e : Expr} {others : List Expr} {a : Span} {read rest : List Lexeme}
      (argument : Expression read e) (behind : Arguments rest others)
      : Arguments (read ++ ⟨.mark .comma, a⟩ :: rest) (e :: others)

/-- A literal, a name, an expression in parentheses or a function. -/
inductive Primary : List Lexeme → Expr → Prop
  | literal {value : Literal} {a : Span} : Primary [⟨value.token, a⟩] (.literal value)
  | name {name : String} {a : Span} : Primary [⟨.name name, a⟩] (.name name)
  | paren {e : Expr} {a b : Span} {inner : List Lexeme} (enclosed : Expression inner e)
      : Primary (⟨.mark .leftParen, a⟩ :: (inner ++ [⟨.mark .rightParen, b⟩])) e
  | function {params : List String} {body : List Stmt} {a : Span} {head inner : List Lexeme}
      (parameters : Parameters head params) (block : Block inner body)
      : Primary (⟨.keyword .functionWord, a⟩ :: (head ++ inner)) (.function params body)

end

end Grammar

/-- The table of operators that reading goes by is that of the grammar. -/
theorem Parse.jointAt?_eq_some_iff {level : Nat} {token : Token} {joint : Joint}
    : jointAt? level token = some joint ↔ joint.level = level ∧ token = joint.token := by
  constructor
  · intro known
    unfold jointAt? at known
    split at known <;> cases known <;> exact ⟨rfl, rfl⟩
  · rintro ⟨rfl, rfl⟩
    cases joint with
    | binary op => cases op <;> rfl
    | logical op => cases op <;> rfl

-----------------------------------------------------------------------------------------
-- Distinct parameters
-----------------------------------------------------------------------------------------

mutual

/-- No function in an expression has two parameters of one name. -/
def Expr.DistinctParams : Expr → Prop
  | .literal _ => True
  | .name _ => True
  | .binary _ left right => left.DistinctParams ∧ right.DistinctParams
  | .logical _ left right => left.DistinctParams ∧ right.DistinctParams
  | .assign _ _ value => value.DistinctParams
  | .call callee args => callee.DistinctParams ∧ DistinctParamsOfArgs args
  | .function params body => params.Nodup ∧ DistinctParamsIn body

/-- No function in some arguments has two parameters of one name. -/
def DistinctParamsOfArgs : List Expr → Prop
  | [] => True
  | arg :: rest => arg.DistinctParams ∧ DistinctParamsOfArgs rest

/-- No function in a statement has two parameters of one name. -/
def Stmt.DistinctParams : Stmt → Prop
  | .block _ body => DistinctParamsIn body
  | .branch _ condition yes none => condition.DistinctParams ∧ yes.DistinctParams
  | .branch _ condition yes (some no) =>
      condition.DistinctParams ∧ yes.DistinctParams ∧ no.DistinctParams
  | .ret _ none => True
  | .ret _ (some value) => value.DistinctParams
  | .define _ _ none => True
  | .define _ _ (some value) => value.DistinctParams
  | .discard _ value => value.DistinctParams

/-- No function in some statements has two parameters of one name. -/
def DistinctParamsIn : List Stmt → Prop
  | [] => True
  | stmt :: rest => stmt.DistinctParams ∧ DistinctParamsIn rest

end

theorem Parse.Joint.distinctParams_join {joint : Joint} {left right : Expr}
    : (joint.join left right).DistinctParams ↔ left.DistinctParams ∧ right.DistinctParams := by
  cases joint <;> simp only [join, Expr.DistinctParams]

end StackScript

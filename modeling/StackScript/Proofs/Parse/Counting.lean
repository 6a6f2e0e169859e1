import StackScript.Proofs.Parse.Forms

/-! Reading with a counter of the nesting. The counter is a part of the state: each statement,
each expression and each further operand of a chain counts one up, where the limit allows it.
Statements and expressions count one down at their end, chains and rows of calls put the value
back that they found, and so do lists of statements after each statement, as an error leaves the
counter where it was found. Every value that the counter takes is noted.

The room that is handed down bounds the recursion and nothing else: no test of the nesting looks
at it, and where it is used up there is no outcome. That there always is one, the same as that
of reading with room alone, is proved.
-/

namespace StackScript

/-- A place in the tokens with the counter of the nesting. -/
structure Gauge where
  reader : Reader
  depth : Nat
  /-- The values that the counter has taken so far, in order. -/
  history : List Nat

namespace Gauge

/-- Before the first token, at some nesting. -/
def start (depth : Nat) (lexemes : List Lexeme) : Gauge :=
  ⟨Reader.start lexemes, depth, [depth]⟩

/-- Gives the counter a value. Nothing else does. -/
def count (g : Gauge) (depth : Nat) : Gauge :=
  { g with depth := depth, history := g.history ++ [depth] }

/-- Another place, with the same counter. -/
def place (g : Gauge) (r : Reader) : Gauge :=
  { g with reader := r }

end Gauge

/-- A step of reading with a counter. It has no outcome where the recursion is cut off. -/
abbrev Counting (α : Type) := ExceptT SyntaxError (StateT Gauge Option) α

namespace Counting

open Parse

/-- A step of reading that leaves the counter alone. -/
def lift {α : Type} (p : Parser α) : Counting α := fun g =>
  match p g.reader with
  | .ok value s => some (.ok value, g.place s)
  | .error error s => some (.error error, g.place s)

/-- The value of the counter. -/
def depth : Counting Nat := fun g => some (.ok g.depth, g)

/-- Puts a value of the counter back. -/
def restore (depth : Nat) : Counting Unit := fun g => some (.ok (), g.count depth)

/-- Counts one up, unless that is too deep. -/
def descend : Counting Unit := fun g =>
  if nestingLimit ≤ g.depth then lift (Parser.fail .tooDeep) g
  else some (.ok (), g.count (g.depth + 1))

/-- Counts one down. The counter has no values below zero, and then there is no outcome. -/
def ascend : Counting Unit := fun g =>
  match g.depth with
  | 0 => none
  | less + 1 => some (.ok (), g.count less)

/-- The recursion is cut off. -/
def stuck {α : Type} : Counting α := fun _ => none

mutual

/-- The statements up to the end of the input or, in a block, up to its closing brace. -/
def statements (room : Nat) (nested : Bool) (g : Gauge) : Option (List Stmt × Gauge) :=
  if g.reader.rest.isEmpty || (nested && g.reader.next? = some (.mark .rightBrace)) then
    some ([], g)
  else if errorLimit ≤ g.reader.errors.length then some ([], g.place g.reader.skipAll)
  else do
    let (outcome, behind) ← statement room g
    let behind := behind.count g.depth
    match outcome with
    | .ok first =>
        if behind.reader.remaining < g.reader.remaining then
          let (more, last) ← statements room nested behind
          return (first :: more, last)
        else none
    | .error error =>
        let behind := behind.place ((behind.reader.report error).recover nested)
        if behind.reader.remaining < g.reader.remaining then statements room nested behind
        else none
termination_by (room, 1, g.reader.remaining)

/-- One statement. -/
def statement (room : Nat) : Counting Stmt := do
  descend
  match room with
  | 0 => stuck
  | room + 1 => do
      let stmt ← form room
      ascend
      return stmt
termination_by (room, 0, 0)

/-- A statement, by the token that it begins with. -/
def form (room : Nat) : Counting Stmt := do
  let start ← lift Parser.here
  match ← lift Parser.peek? with
  | some (.mark .leftBrace) => do
      let body ← block room
      return .block (← lift (Parser.spanFrom start)) body
  | some (.keyword .ifWord) => do lift Parser.advance; branch room start
  | some (.keyword .returnWord) => do lift Parser.advance; ret room start
  | some (.keyword .letWord) => do lift Parser.advance; define room start
  | some _ => do
      let value ← expression room
      lift (Parser.expect (.mark .semicolon))
      return .discard (← lift (Parser.spanFrom start)) value
  | none => lift (Parser.fail .expectedStatement)
termination_by (room, 8 + levels, 0)

/-- The statements between two braces. -/
def block (room : Nat) : Counting (List Stmt) := do
  lift (Parser.expect (.mark .leftBrace))
  let body ← (fun g => do
    let (body, behind) ← statements room true g
    return (.ok body, behind) : Counting (List Stmt))
  lift (Parser.expect (.mark .rightBrace))
  return body
termination_by (room, 2, 0)

/-- What stands behind the word `if`: a condition and one or two statements. -/
def branch (room : Nat) (start : Span) : Counting Stmt := do
  lift (Parser.expect (.mark .leftParen))
  let condition ← expression room
  lift (Parser.expect (.mark .rightParen))
  let yes ← statement room
  let no ←
    if ← lift (Parser.accept (.keyword .elseWord)) then some <$> statement room
    else pure none
  return .branch (← lift (Parser.spanFrom start)) condition yes no
termination_by (room, 2, 0)

/-- What stands behind the word `return`. -/
def ret (room : Nat) (start : Span) : Counting Stmt := do
  let value ←
    if (← lift Parser.peek?) = some (.mark .semicolon) then pure none
    else some <$> expression room
  lift (Parser.expect (.mark .semicolon))
  return .ret (← lift (Parser.spanFrom start)) value
termination_by (room, 2, 0)

/-- What stands behind the word `let`. -/
def define (room : Nat) (start : Span) : Counting Stmt := do
  let name ← lift Parser.expectName
  let value ←
    if ← lift (Parser.accept (.mark .assign)) then some <$> expression room
    else pure none
  lift (Parser.expect (.mark .semicolon))
  return .define (← lift (Parser.spanFrom start)) name value
termination_by (room, 2, 0)

/-- An expression. -/
def expression (room : Nat) : Counting Expr := do
  descend
  match room with
  | 0 => stuck
  | room + 1 => do
      let e ← assign room
      ascend
      return e
termination_by (room, 0, 0)

/-- An assignment or a chain of operands. -/
def assign (room : Nat) : Counting Expr := do
  match assignmentAhead? (← lift get) with
  | some (name, how) => do
      lift Parser.advance
      lift Parser.advance
      return .assign name how (← expression room)
  | none => chain room levels
termination_by (room, 7 + levels, 0)

/-- Operands joined from the left by the operators of the levels below the given one. -/
def chain (room : Nat) (level : Nat) : Counting Expr :=
  match level with
  | 0 => call room
  | level + 1 => do
      let found ← depth
      let left ← chain room level
      let e ← chainTail room level left
      restore found
      return e
termination_by (room, 6 + level, 0)

/-- The further operands of a chain. Each counts one up, and none counts down. -/
def chainTail (room : Nat) (level : Nat) (left : Expr) : Counting Expr := do
  match (← lift Parser.peek?).bind (jointAt? level) with
  | none => return left
  | some joint => do
      lift Parser.advance
      descend
      match room with
      | 0 => stuck
      | room + 1 => do
          let right ← chain room level
          chainTail room level (joint.join left right)
termination_by (room, 0, 0)

/-- An operand and the calls that follow it. -/
def call (room : Nat) : Counting Expr := do
  let found ← depth
  let callee ← operand room
  let e ← callTail room callee
  restore found
  return e
termination_by (room, 5, 0)

/-- The further calls of a row. Each counts one up, and none counts down. -/
def callTail (room : Nat) (callee : Expr) : Counting Expr := do
  if ← lift (Parser.accept (.mark .leftParen)) then
    descend
    match room with
    | 0 => stuck
    | room + 1 => do
        let args ← argumentList room
        callTail room (.call callee args)
  else return callee
termination_by (room, 0, 0)

/-- The arguments of a call up to its closing parenthesis. -/
def argumentList (room : Nat) : Counting (List Expr) := do
  let args ←
    if (← lift Parser.peek?) = some (.mark .rightParen) then pure []
    else (fun g => arguments room g : Counting (List Expr))
  lift (Parser.expect (.mark .rightParen))
  return args
termination_by (room, 2, 0)

/-- Expressions up to the one that no comma follows. -/
def arguments (room : Nat) (g : Gauge) : Option (Except SyntaxError (List Expr) × Gauge) :=
  (do
    let first ← expression room
    if ← lift (Parser.accept (.mark .comma)) then
      return first :: (← (fun behind =>
        if behind.reader.remaining < g.reader.remaining then arguments room behind else none
        : Counting (List Expr)))
    else return [first] : Counting (List Expr)) g
termination_by (room, 1, g.reader.remaining)

/-- A literal, a name, a function or an expression in parentheses. -/
def operand (room : Nat) : Counting Expr := do
  match ← lift Parser.peek? with
  | some (.number digits) => do lift Parser.advance; return .literal (.number digits)
  | some (.text content) => do lift Parser.advance; return .literal (.text content)
  | some (.keyword .trueWord) => do lift Parser.advance; return .literal (.bool true)
  | some (.keyword .falseWord) => do lift Parser.advance; return .literal (.bool false)
  | some (.keyword .nullWord) => do lift Parser.advance; return .literal .null
  | some (.name name) => do lift Parser.advance; return .name name
  | some (.mark .leftParen) => do
      lift Parser.advance
      let inner ← expression room
      lift (Parser.expect (.mark .rightParen))
      return inner
  | some (.keyword .functionWord) => do lift Parser.advance; function room
  | found => lift (Parser.fail (.expectedExpression found))
termination_by (room, 4, 0)

/-- What stands behind the word `function`: parameters and a body. -/
def function (room : Nat) : Counting Expr := do
  let params ← lift parameterList
  return .function params (← block room)
termination_by (room, 3, 0)

end

/-- A list of statements, which never fails. -/
def listed (room : Nat) (nested : Bool) : Counting (List Stmt) := fun g => do
  let (body, behind) ← statements room nested g
  return (.ok body, behind)

/-- Reads tokens as a script, and tells every value that the counter took. -/
def parse (lexemes : List Lexeme) : Option ((Script × List SyntaxError) × List Nat) := do
  let (statements, last) ← statements nestingLimit false (Gauge.start 0 lexemes)
  return ((⟨statements⟩, last.reader.errors), last.history)

end Counting

end StackScript

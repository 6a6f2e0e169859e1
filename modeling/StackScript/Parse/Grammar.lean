import StackScript.Parse.Reader
import StackScript.Tree.Basic

/-! The grammar of scripts. Every function reads one phrase and takes as `room` how many
levels of nesting are still allowed; each statement, each expression and each further
operand of a chain takes one. An error inside a list of statements is noted, and reading
goes on behind the statement, so that a script shows all its errors at once.
-/

namespace StackScript

namespace Parse

/-- The most errors after which a list of statements gives up. -/
def errorLimit : Nat := 20

/-- An operator that joins two operands. -/
inductive Joint
  | binary (op : Operator)
  | logical (op : LogicalOperator)

/-- The expression made of two operands. -/
def Joint.join : Joint → Expr → Expr → Expr
  | .binary op, left, right => .binary op left right
  | .logical op, left, right => .logical op left right

/-- The operators of each level, the tightest level first. -/
def jointAt? : Nat → Token → Option Joint
  | 0, .operator .multiply => some (.binary .multiply)
  | 0, .operator .divide => some (.binary .divide)
  | 0, .operator .remainder => some (.binary .remainder)
  | 1, .operator .add => some (.binary .add)
  | 1, .operator .subtract => some (.binary .subtract)
  | 2, .operator .less => some (.binary .less)
  | 2, .operator .lessOrEqual => some (.binary .lessOrEqual)
  | 2, .operator .greater => some (.binary .greater)
  | 2, .operator .greaterOrEqual => some (.binary .greaterOrEqual)
  | 3, .operator .equal => some (.binary .equal)
  | 3, .operator .notEqual => some (.binary .notEqual)
  | 4, .mark .andAnd => some (.logical .and)
  | 5, .mark .orOr => some (.logical .or)
  | _, _ => none

/-- The number of levels of operators. -/
def levels : Nat := 6

/-- The assignment that a token starts. -/
def assignment? : Token → Option Assignment
  | .mark .assign => some .set
  | .update op => some (.update op.operator)
  | _ => none

/-- The name and the kind of the assignment that stands next, if one does. -/
def assignmentAhead? (r : Reader) : Option (String × Assignment) :=
  match r.rest with
  | ⟨.name name, _⟩ :: ⟨token, _⟩ :: _ => (assignment? token).map fun how => (name, how)
  | _ => none

/-- Passing over a token leaves one token less. -/
theorem length_rest_advance (r : Reader) : r.advance.rest.length = r.rest.length - 1 := by
  unfold Reader.advance
  split <;> simp_all

/-- A reader with a next token has tokens left. -/
theorem length_rest_pos {r : Reader} {token : Token} (next : r.next? = some token)
    : 0 < r.rest.length := by
  rw [List.length_pos_iff]
  intro none
  simp [Reader.next?, none] at next

/-- The names of parameters up to the one that no comma follows. Each must differ from those
before it.
-/
def parameters (seen : List String) (r : Reader)
    : EStateM.Result SyntaxError Reader (List String) :=
  match _next : r.next? with
  | some (.name name) =>
      let behind := r.advance
      if seen.contains name then
        .error ⟨.duplicateParameter name, behind.position, behind.previous⟩ behind
      else if behind.next? = some (.mark .comma) then
        parameters (seen ++ [name]) behind.advance
      else .ok (seen ++ [name]) behind
  | found => Parser.fail (.expectedName found) r
termination_by r.rest.length
decreasing_by
  have := length_rest_pos _next
  rw [length_rest_advance, length_rest_advance]
  omega

/-- The parameters of a function between their parentheses. -/
def parameterList : Parser (List String) := do
  Parser.expect (.mark .leftParen)
  let params ←
    if (← Parser.peek?) = some (.mark .rightParen) then pure [] else parameters []
  Parser.expect (.mark .rightParen)
  return params

mutual

/-- The statements up to the end of the input or, in a block, up to its closing brace. After
too many errors the rest of the input is passed over. Every round passes over a token, so
that a round that did not would be the last.
-/
def statements (room : Nat) (nested : Bool) (r : Reader) : List Stmt × Reader :=
  if r.rest.isEmpty || (nested && r.next? = some (.mark .rightBrace)) then ([], r)
  else if errorLimit ≤ r.errors.length then ([], r.skipAll)
  else
    match statement room r with
    | .ok first behind =>
        if behind.remaining < r.remaining then
          let (more, last) := statements room nested behind
          (first :: more, last)
        else ([first], behind)
    | .error error found =>
        let behind := (found.report error).recover nested
        if behind.remaining < r.remaining then statements room nested behind
        else ([], behind)
termination_by (room, 1, r.remaining)

/-- One statement. -/
def statement (room : Nat) : Parser Stmt :=
  match room with
  | 0 => Parser.fail .tooDeep
  | room + 1 => do
      let start ← Parser.here
      match ← Parser.peek? with
      | some (.mark .leftBrace) => do
          let body ← block room
          return .block (← Parser.spanFrom start) body
      | some (.keyword .ifWord) => do
          Parser.advance
          Parser.expect (.mark .leftParen)
          let condition ← expression room
          Parser.expect (.mark .rightParen)
          let yes ← statement room
          let no ←
            if ← Parser.accept (.keyword .elseWord) then some <$> statement room
            else pure none
          return .branch (← Parser.spanFrom start) condition yes no
      | some (.keyword .returnWord) => do
          Parser.advance
          let value ←
            if (← Parser.peek?) = some (.mark .semicolon) then pure none
            else some <$> expression room
          Parser.expect (.mark .semicolon)
          return .ret (← Parser.spanFrom start) value
      | some (.keyword .letWord) => do
          Parser.advance
          let name ← Parser.expectName
          let value ←
            if ← Parser.accept (.mark .assign) then some <$> expression room
            else pure none
          Parser.expect (.mark .semicolon)
          return .define (← Parser.spanFrom start) name value
      | some _ => do
          let value ← expression room
          Parser.expect (.mark .semicolon)
          return .discard (← Parser.spanFrom start) value
      | none => Parser.fail .expectedStatement
termination_by (room, 0, 0)

/-- The statements between two braces. -/
def block (room : Nat) : Parser (List Stmt) := do
  Parser.expect (.mark .leftBrace)
  let body ← (fun r =>
    let (body, behind) := statements room true r
    EStateM.Result.ok body behind : Parser (List Stmt))
  Parser.expect (.mark .rightBrace)
  return body
termination_by (room, 2, 0)

/-- An expression: an assignment, which extends as far to the right as it can, or a chain of
operands.
-/
def expression (room : Nat) : Parser Expr :=
  match room with
  | 0 => Parser.fail .tooDeep
  | room + 1 => do
      match assignmentAhead? (← get) with
      | some (name, how) => do
          Parser.advance
          Parser.advance
          return .assign name how (← expression room)
      | none => chain room levels
termination_by (room, 0, 0)

/-- Operands joined from the left by the operators of the levels below the given one. -/
def chain (room : Nat) (level : Nat) : Parser Expr :=
  match level with
  | 0 => call room
  | level + 1 => do
      let left ← chain room level
      chainTail room level left
termination_by (room, 6 + level, 0)

/-- The further operands of a chain, each one level deeper than the one before. -/
def chainTail (room : Nat) (level : Nat) (left : Expr) : Parser Expr := do
  match (← Parser.peek?).bind (jointAt? level) with
  | none => return left
  | some joint => do
      Parser.advance
      match room with
      | 0 => Parser.fail .tooDeep
      | room + 1 => do
          let right ← chain room level
          chainTail room level (joint.join left right)
termination_by (room, 0, 0)

/-- An operand and the calls that follow it. -/
def call (room : Nat) : Parser Expr := do
  let callee ← operand room
  callTail room callee
termination_by (room, 5, 0)

/-- The further calls of a chain of calls, each one level deeper than the one before. -/
def callTail (room : Nat) (callee : Expr) : Parser Expr := do
  if ← Parser.accept (.mark .leftParen) then
    match room with
    | 0 => Parser.fail .tooDeep
    | room + 1 => do
        let args ←
          if (← Parser.peek?) = some (.mark .rightParen) then pure []
          else (fun r => arguments room r : Parser (List Expr))
        Parser.expect (.mark .rightParen)
        callTail room (.call callee args)
  else return callee
termination_by (room, 0, 0)

/-- Expressions up to the one that no comma follows. Every round passes over a token. -/
def arguments (room : Nat) (r : Reader) : EStateM.Result SyntaxError Reader (List Expr) :=
  match expression room r with
  | .error error found => .error error found
  | .ok first behind =>
      if behind.next? = some (.mark .comma) then
        if behind.advance.remaining < r.remaining then
          match arguments room behind.advance with
          | .ok more last => .ok (first :: more) last
          | .error error found => .error error found
        else .ok [first] behind.advance
      else .ok [first] behind
termination_by (room, 1, r.remaining)

/-- A literal, a name, a function or an expression in parentheses. -/
def operand (room : Nat) : Parser Expr := do
  match ← Parser.peek? with
  | some (.number digits) => do Parser.advance; return .literal (.number digits)
  | some (.text content) => do Parser.advance; return .literal (.text content)
  | some (.keyword .trueWord) => do Parser.advance; return .literal (.bool true)
  | some (.keyword .falseWord) => do Parser.advance; return .literal (.bool false)
  | some (.keyword .nullWord) => do Parser.advance; return .literal .null
  | some (.name name) => do Parser.advance; return .name name
  | some (.mark .leftParen) => do
      Parser.advance
      let inner ← expression room
      Parser.expect (.mark .rightParen)
      return inner
  | some (.keyword .functionWord) => do
      Parser.advance
      let params ← parameterList
      return .function params (← block room)
  | found => Parser.fail (.expectedExpression found)
termination_by (room, 4, 0)

end

end Parse

/-- Reads tokens as a script. The script is only meaningful if there are no errors. -/
def parse (lexemes : List Lexeme) : Script × List SyntaxError :=
  let (statements, last) := Parse.statements nestingLimit false (Reader.start lexemes)
  (⟨statements⟩, last.errors)

end StackScript

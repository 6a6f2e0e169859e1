import StackScript.Parse.Error

/-! Reading tokens one after another. A reader stands before the tokens that are left and
collects the errors found on the way; it moves forward only.
-/

namespace StackScript

/-- A place in a sequence of tokens, with the errors found before it. -/
structure Reader where
  rest : List Lexeme
  /-- The number of tokens before this place. -/
  position : Nat
  /-- The number of tokens in all. -/
  total : Nat
  /-- The span of the token before this place. -/
  previous : Span
  /-- The errors in the order in which they were found. -/
  errors : List SyntaxError

namespace Reader

/-- A reader before the first token. -/
def start (lexemes : List Lexeme) : Reader :=
  ⟨lexemes, 0, lexemes.length, Span.unknown, []⟩

/-- The number of tokens that are left. -/
def remaining (r : Reader) : Nat :=
  r.total - r.position

/-- The next token, if one is left. -/
def next? (r : Reader) : Option Token :=
  r.rest.head?.map Lexeme.token

/-- The span of the next token; at the end, the point behind the last one. -/
def here (r : Reader) : Span :=
  match r.rest with
  | lexeme :: _ => lexeme.span
  | [] => Span.point r.previous.stop

/-- The place behind the next token. -/
def advance (r : Reader) : Reader :=
  match r.rest with
  | lexeme :: rest =>
      { r with rest := rest, position := r.position + 1, previous := lexeme.span }
  | [] => r

/-- The place behind a number of tokens. -/
def skip : Nat → Reader → Reader
  | 0, r => r
  | count + 1, r => skip count r.advance

/-- The place behind all tokens. -/
def skipAll (r : Reader) : Reader :=
  r.skip r.rest.length

/-- Notes an error. -/
def report (r : Reader) (error : SyntaxError) : Reader :=
  { r with errors := r.errors ++ [error] }

/-- The number of tokens to pass over after an error: up to and with the next semicolon, or
up to the brace that closes the enclosing block, which a nested reader leaves to the block.
Groups in braces are passed over whole, with a semicolon that follows one.
-/
def recoveryLength (nested : Bool) (depth : Nat) : List Lexeme → Nat
  | [] => 0
  | lexeme :: rest =>
      match lexeme.token, depth with
      | .mark .semicolon, 0 => 1
      | .mark .leftBrace, depth => 1 + recoveryLength nested (depth + 1) rest
      | .mark .rightBrace, 0 => if nested then 0 else 1
      | .mark .rightBrace, 1 =>
          if rest.head?.map Lexeme.token = some (.mark .semicolon) then 2 else 1
      | .mark .rightBrace, depth + 1 => 1 + recoveryLength nested depth rest
      | _, depth => 1 + recoveryLength nested depth rest

/-- The place from which reading goes on after an error. -/
def recover (nested : Bool) (r : Reader) : Reader :=
  r.skip (recoveryLength nested 0 r.rest)

end Reader

/-- A step of reading: a result and the place behind it, or the error that stopped it and the
place where it was found.
-/
abbrev Parser (α : Type) := EStateM SyntaxError Reader α

namespace Parser

/-- Stops with an error at this place. -/
def fail {α : Type} (cause : SyntaxCause) : Parser α := fun r =>
  .error ⟨cause, r.position, r.here⟩ r

/-- The next token, without passing over it. -/
def peek? : Parser (Option Token) := fun r => .ok r.next? r

/-- The span of the next token. -/
def here : Parser Span := fun r => .ok r.here r

/-- The span from the given start to the last token that was read. -/
def spanFrom (start : Span) : Parser Span := fun r => .ok (start.merge r.previous) r

/-- Passes over the next token. -/
def advance : Parser Unit := fun r => .ok () r.advance

/-- Passes over the given token if it is the next one, and tells whether it was. -/
def accept (token : Token) : Parser Bool := fun r =>
  if r.next? = some token then .ok true r.advance else .ok false r

/-- Passes over the given token, which must be the next one. -/
def expect (token : Token) : Parser Unit := fun r =>
  if r.next? = some token then .ok () r.advance else fail (.expected token r.next?) r

/-- Passes over a name, which must be the next token. -/
def expectName : Parser String := fun r =>
  match r.next? with
  | some (.name name) => .ok name r.advance
  | found => fail (.expectedName found) r

end Parser

end StackScript

import StackScript.Token.Basic

/-! What can be wrong with a sequence of tokens. -/

namespace StackScript

/-- The deepest nesting of statements and expressions. -/
def nestingLimit : Nat := 128

/-- Why a sequence of tokens is no script. A token that was found is missing where the input
ends.
-/
inductive SyntaxCause
  | expected (wanted : Token) (found : Option Token)
  | expectedName (found : Option Token)
  | expectedStatement
  | expectedExpression (found : Option Token)
  | duplicateParameter (name : String)
  | tooDeep
deriving DecidableEq, Repr

namespace SyntaxCause

/-- The stable code of the error. -/
def code : SyntaxCause → String
  | .expected _ (some _) => "SPD-P001"
  | .expected _ none => "SPD-P002"
  | .expectedName (some _) => "SPD-P003"
  | .expectedName none => "SPD-P004"
  | .expectedStatement => "SPD-P005"
  | .expectedExpression (some _) => "SPD-P006"
  | .expectedExpression none => "SPD-P007"
  | .duplicateParameter _ => "SPD-P008"
  | .tooDeep => "SPD-P009"

/-- A token that was found, or the end of the input. -/
def describeFound : Option Token → String
  | some token => token.describe
  | none => "EOF"

/-- The error as one sentence. -/
def message : SyntaxCause → String
  | .expected wanted found => "expected " ++ wanted.label ++ ", got " ++ describeFound found
  | .expectedName found => "expected identifier, got " ++ describeFound found
  | .expectedStatement => "expected statement, got EOF"
  | .expectedExpression found => "expected expression, got " ++ describeFound found
  | .duplicateParameter name => "duplicate parameter '" ++ name ++ "'"
  | .tooDeep => "nesting deeper than " ++ toString nestingLimit ++ " levels"

end SyntaxCause

/-- A syntax error with its place, both as a number of tokens and in the source. -/
structure SyntaxError where
  cause : SyntaxCause
  position : Nat
  span : Span
deriving DecidableEq, Repr

namespace SyntaxError

/-- The error with the number of the token at which it was noticed. -/
def located (error : SyntaxError) : String :=
  "Parse error at token " ++ toString error.position ++ ": " ++ error.cause.message

end SyntaxError

end StackScript

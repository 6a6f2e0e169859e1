import StackScript.Operator
import StackScript.Source.Span

/-! The tokens of the language and their spellings. -/

namespace StackScript

/-- The reserved words. -/
inductive Keyword
  | letWord
  | returnWord
  | ifWord
  | elseWord
  | functionWord
  | trueWord
  | falseWord
  | nullWord
deriving DecidableEq, Repr, Inhabited

namespace Keyword

def all : List Keyword :=
  [.letWord, .returnWord, .ifWord, .elseWord, .functionWord, .trueWord, .falseWord, .nullWord]

/-- The word as it is written. -/
def spelling : Keyword → String
  | .letWord => "let"
  | .returnWord => "return"
  | .ifWord => "if"
  | .elseWord => "else"
  | .functionWord => "function"
  | .trueWord => "true"
  | .falseWord => "false"
  | .nullWord => "null"

/-- The word as error messages name it. -/
def label : Keyword → String
  | .letWord => "Let"
  | .returnWord => "Return"
  | .ifWord => "If"
  | .elseWord => "Else"
  | .functionWord => "Function"
  | .trueWord => "True"
  | .falseWord => "False"
  | .nullWord => "Null"

/-- The reserved word with the given spelling. -/
def ofSpelling? (text : String) : Option Keyword :=
  all.find? fun word => word.spelling = text

end Keyword

/-- Punctuation other than the binary operators. -/
inductive Mark
  | leftParen
  | rightParen
  | leftBrace
  | rightBrace
  | comma
  | semicolon
  | assign
  | orOr
  | andAnd
deriving DecidableEq, Repr, Inhabited

namespace Mark

/-- The mark as error messages name it. -/
def label : Mark → String
  | .leftParen => "LParen"
  | .rightParen => "RParen"
  | .leftBrace => "LBrace"
  | .rightBrace => "RBrace"
  | .comma => "Comma"
  | .semicolon => "Semi"
  | .assign => "Assign"
  | .orOr => "OrOr"
  | .andAnd => "AndAnd"

/-- The mark as it is written. -/
def spelling : Mark → String
  | .leftParen => "("
  | .rightParen => ")"
  | .leftBrace => "\x7b"
  | .rightBrace => "\x7d"
  | .comma => ","
  | .semicolon => ";"
  | .assign => "="
  | .orOr => "||"
  | .andAnd => "&&"

end Mark

/-- The arithmetic operators that may be joined to an assignment. -/
inductive Update
  | add
  | subtract
  | multiply
  | divide
  | remainder
deriving DecidableEq, Repr, Inhabited

namespace Update

/-- The operator that combines the old value with the new one. -/
def operator : Update → Operator
  | .add => .add
  | .subtract => .subtract
  | .multiply => .multiply
  | .divide => .divide
  | .remainder => .remainder

/-- The update as error messages name it. -/
def label : Update → String
  | .add => "PlusEq"
  | .subtract => "MinusEq"
  | .multiply => "StarEq"
  | .divide => "SlashEq"
  | .remainder => "PercentEq"

/-- The update as it is written. -/
def spelling (update : Update) : String :=
  update.operator.spelling ++ "="

end Update

namespace Operator

/-- The operator as error messages name it. -/
def label : Operator → String
  | .add => "Plus"
  | .subtract => "Minus"
  | .multiply => "Star"
  | .divide => "Slash"
  | .remainder => "Percent"
  | .equal => "EqEq"
  | .notEqual => "NotEq"
  | .less => "Less"
  | .lessOrEqual => "LessEq"
  | .greater => "Greater"
  | .greaterOrEqual => "GreaterEq"

end Operator

/-- A token. Numbers keep their text, suffix included, and strings the text between their
quotes.
-/
inductive Token
  | keyword (word : Keyword)
  | mark (mark : Mark)
  | operator (op : Operator)
  | update (op : Update)
  | number (text : String)
  | text (content : String)
  | name (name : String)
deriving DecidableEq, Repr, Inhabited

namespace Token

/-- The kind of the token as error messages name it. -/
def label : Token → String
  | .keyword word => word.label
  | .mark symbol => symbol.label
  | .operator op => op.label
  | .update op => op.label
  | .number _ => "Number"
  | .text _ => "Text"
  | .name _ => "Ident"

/-- The text that a token carries. -/
def payload? : Token → Option String
  | .number digits => some digits
  | .text content => some content
  | .name word => some word
  | _ => none

/-- The token as error messages show it where another was expected. -/
def describe : Token → String
  | .number digits => "number '" ++ digits ++ "'"
  | .text content => "string \"" ++ content ++ "\""
  | .name word => "identifier '" ++ word ++ "'"
  | token => token.label

/-- The token as it is written. -/
def spelling : Token → String
  | .keyword word => word.spelling
  | .mark symbol => symbol.spelling
  | .operator op => op.spelling
  | .update op => op.spelling
  | .number digits => digits
  | .text content => "\"" ++ content ++ "\""
  | .name word => word

end Token

/-- A token with its place in the source. -/
structure Lexeme where
  token : Token
  span : Span
deriving DecidableEq, Repr, Inhabited

/-- A stretch of source text that starts no token. -/
structure LexError where
  /-- The byte at which it starts. -/
  offset : Nat
  snippet : String
  /-- What the writer may have meant. -/
  advice : String
deriving DecidableEq, Repr, Inhabited

namespace LexError

/-- The error as one sentence. -/
def message (error : LexError) : String :=
  "Lex error at position " ++ toString error.offset ++ ": '" ++ error.snippet ++ "'. "
    ++ error.advice

/-- The advice for a stretch of text, from its first character. -/
def adviceFor (snippet : List Char) : String :=
  match snippet with
  | '\'' :: _ => "String literals use double quotes"
  | '"' :: _ => "Unterminated string literal"
  | '&' :: _ => "Logical and is written '&&'"
  | '|' :: _ => "Logical or is written '||'"
  | '!' :: _ => "There is no unary '!'; compare with 'false' instead"
  | _ => "Unexpected character(s): '" ++ String.ofList snippet ++ "'"

end LexError

end StackScript

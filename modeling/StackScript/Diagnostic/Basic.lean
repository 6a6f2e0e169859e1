import StackScript.Compile.Error
import StackScript.Machine.Fault
import StackScript.Parse.Error

/-! Diagnostics: errors of every kind in the form in which they are reported. -/

namespace StackScript

/-- A span of the source and what is to be said there. -/
structure Label where
  span : Span
  message : String
deriving DecidableEq, Repr, Inhabited

/-- An error to report. -/
structure Diagnostic where
  code : Option String
  message : String
  label : Option Label
  notes : List String
  suggestion : Option String
  source : Option String
deriving DecidableEq, Repr, Inhabited

namespace Diagnostic

/-- An error of which only the message is known. -/
def ofMessage (message : String) : Diagnostic :=
  ⟨none, message, none, [], none, none⟩

/-- An error with a stable code. -/
def ofCode (code message : String) : Diagnostic :=
  { ofMessage message with code := some code }

/-- An error with a stable code at a place of the source. -/
def located (code message : String) (span : Span) : Diagnostic :=
  { ofCode code message with label := some ⟨span, "here"⟩ }

/-- The error with one note more. -/
def note (diagnostic : Diagnostic) (text : String) : Diagnostic :=
  { diagnostic with notes := diagnostic.notes ++ [text] }

/-- The error with a suggestion. -/
def suggest (diagnostic : Diagnostic) (text : String) : Diagnostic :=
  { diagnostic with suggestion := some text }

/-- The error with the source that its label is about. -/
def inSource (diagnostic : Diagnostic) (source : String) : Diagnostic :=
  { diagnostic with source := some source }

end Diagnostic

/-- The report of text that starts no token. -/
def LexError.diagnostic (error : LexError) : Diagnostic :=
  let span := ⟨error.offset, error.offset + max error.snippet.utf8ByteSize 1⟩
  let report := Diagnostic.located "SPD-L001" ("unexpected input '" ++ error.snippet ++ "'") span
  if error.advice = "" then report else report.suggest error.advice

/-- The report of a syntax error. -/
def SyntaxError.diagnostic (error : SyntaxError) : Diagnostic :=
  .located error.cause.code error.cause.message error.span

namespace CompileError

/-- The stable code of the error. -/
def code : CompileError → String
  | .scopeUnderflow => "SPD-C001"
  | .tooManyLocals _ => "SPD-C002"
  | .tooManyGlobals _ => "SPD-C003"
  | .tooManyFunctions => "SPD-C004"
  | .tooManyStrings => "SPD-C005"
  | .tooManyArguments _ => "SPD-C006"
  | .tooManyParameters _ => "SPD-C007"
  | .jumpTooLarge _ => "SPD-C008"
  | .longOutOfRange _ => "SPD-C009"
  | .invalidLiteral _ => "SPD-C010"

/-- The report of the error. -/
def diagnostic (error : CompileError) : Diagnostic :=
  let report := Diagnostic.ofCode error.code error.message
  match error with
  | .longOutOfRange _ => report.suggest "LONG literals must fit in a signed 64-bit integer"
  | .jumpTooLarge _ => report.suggest "split the branch body into smaller functions"
  | _ => report

end CompileError

namespace Fault

/-- The stable code of the fault. -/
def code : Fault → String
  | .unsetGlobal _ => "SPD-R001"
  | .notCallable _ => "SPD-R002"
  | .arityMismatch _ _ _ => "SPD-R003"
  | .operandTypes _ _ _ => "SPD-R004"
  | .malformed _ => "SPD-R005"
  | .noFunction _ => "SPD-R006"
  | .noString _ => "SPD-R006"
  | .noLocal _ => "SPD-R007"
  | .stackUnderflow => "SPD-R007"
  | .stackOverflow _ => "SPD-R008"
  | .tooManyCalls _ => "SPD-R008"
  | .ranPastEnd _ => "SPD-R009"
  | .argumentCount _ _ => "SPD-R010"
  | .output _ => "SPD-R010"

/-- The report of the fault. -/
def diagnostic (fault : Fault) : Diagnostic :=
  let report := Diagnostic.ofCode fault.code fault.message
  match fault with
  | .unsetGlobal _ =>
      report.note
        "globals may be referenced before their `let`, but not read before it runs"
  | .operandTypes _ _ _ =>
      report.note "arithmetic and comparison take NUMBER operands only"
  | _ => report

end Fault

end StackScript

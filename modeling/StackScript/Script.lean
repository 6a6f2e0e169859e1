import StackScript.Compile.Write
import StackScript.Diagnostic.Basic
import StackScript.Parse.Grammar
import StackScript.Source.Position
import StackScript.Token.Reading

/-! From source text to programs. -/

namespace StackScript

namespace Script

/-- The script in a source text, or the reports of what is wrong with it. Only a text that
reads into tokens without an error is read as a script.
-/
def read (source : String) : Except (List Diagnostic) Script :=
  match lex source with
  | .error errors => .error (errors.map LexError.diagnostic)
  | .ok lexemes =>
      match parse lexemes with
      | (script, []) => .ok script
      | (_, errors) => .error (errors.map SyntaxError.diagnostic)

end Script

/-- What compiling a source text comes to. -/
inductive Compilation
  /-- The text is no script; each error with its position. -/
  | rejected (errors : List (Source.Position × String))
  | failed (error : CompileError)
  | compiled (program : Program)

namespace Diagnostic

/-- The position of a report in its source: that of its label, or the start. -/
def position (source : String) (diagnostic : Diagnostic) : Source.Position :=
  match diagnostic.label with
  | some label => Source.position source label.span.start
  | none => ⟨1, 1⟩

end Diagnostic

/-- Compiles a source text. -/
def compileSource (source : String) : Compilation :=
  match Script.read source with
  | .error reports =>
      .rejected (reports.map fun report => (report.position source, report.message))
  | .ok script =>
      match script.compile with
      | .error error => .failed error
      | .ok program => .compiled program

end StackScript

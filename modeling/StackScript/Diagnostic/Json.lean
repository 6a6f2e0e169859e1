import StackScript.Diagnostic.Basic
import StackScript.Json.Text
import StackScript.Source.Position

/-! Diagnostics as JSON, one object on one line, its fields in the order of their names. -/

namespace StackScript

/-- A field that is left out where there is no value for it. -/
def Json.optionalField {α : Type} (name : String) (encode : α → Json)
    : Option α → List (String × Json)
  | none => []
  | some value => [(name, encode value)]

namespace Label

/-- The JSON form of a label. Line and column are known only where there is a source. -/
def toJson (source : Option String) (label : Label) : Json :=
  let start := source.map fun text => Source.position text label.span.start
  .object
    (Json.optionalField "col" (fun p : Source.Position => .nat p.column) start
      ++ [("end", .nat label.span.stop)]
      ++ Json.optionalField "line" (fun p : Source.Position => .nat p.line) start
      ++ [("message", .string label.message), ("start", .nat label.span.start)])

end Label

namespace Diagnostic

/-- The JSON form of a diagnostic. -/
def toJson (diagnostic : Diagnostic) : Json :=
  .object
    (Json.optionalField "code" .string diagnostic.code
      ++ Json.optionalField "label" (Label.toJson diagnostic.source) diagnostic.label
      ++ [("message", .string diagnostic.message),
        ("notes", .array (diagnostic.notes.map .string)),
        ("severity", .string "error")]
      ++ Json.optionalField "suggestion" .string diagnostic.suggestion)

/-- The diagnostic as a line of JSON. -/
def jsonLine (diagnostic : Diagnostic) : String :=
  diagnostic.toJson.compact

end Diagnostic

end StackScript

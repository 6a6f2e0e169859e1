import StackScript.Diagnostic.Basic
import StackScript.Source.Position

/-! Diagnostics as a terminal shows them: a headline, the line of the source with carets under
the span, then notes and help. The text is made of fragments, some of which have a style;
colour only decides whether the styles are written.
-/

namespace StackScript

/-- The look of a fragment. -/
inductive Style
  | plain
  | bold
  | boldRed
  | cyan
  | dim
deriving DecidableEq, Repr, Inhabited

namespace Style

/-- The parameters of the control sequence that starts the style. -/
def parameters? : Style → Option String
  | .plain => none
  | .bold => some "1"
  | .boldRed => some "1;31"
  | .cyan => some "36"
  | .dim => some "2"

end Style

/-- A piece of text in one style. -/
structure Fragment where
  style : Style
  text : String
deriving DecidableEq, Repr, Inhabited

namespace Fragment

/-- The text of a fragment. In colour, a control sequence starts its style and another one
ends it.
-/
def render (colored : Bool) (fragment : Fragment) : String :=
  match fragment.style.parameters?, colored with
  | some parameters, true => "\x1b[" ++ parameters ++ "m" ++ fragment.text ++ "\x1b[0m"
  | _, _ => fragment.text

end Fragment

namespace Diagnostic

/-- Text without a style. -/
def plain (text : String) : Fragment := ⟨.plain, text⟩

/-- A number of equal characters. -/
def repeated (c : Char) (count : Nat) : String :=
  String.ofList (List.replicate count c)

/-- The number of carets under a span that starts at the given position: one for each of its
characters on that line, and at least one.
-/
def caretCount (source : String) (span : Span) (start : Source.Position) : Nat :=
  let stop := Source.position source span.stop
  let stopColumn :=
    if stop.line = start.line then stop.column
    else (Source.lineText source start.line).length + 1
  max (stopColumn - start.column) 1

/-- The place, the line and the carets of a label. -/
def labelFragments (label : Label) (source : String) : List Fragment :=
  let start := Source.position source label.span.start
  let number := toString start.line
  let pad := repeated ' ' number.length
  let gutter := [plain (pad ++ " "), ⟨.cyan, "|"⟩]
  let carets := repeated '^' (caretCount source label.span start)
  [plain "  ", ⟨.cyan, "-->"⟩,
      plain (" " ++ number ++ ":" ++ toString start.column ++ "\n")]
    ++ gutter ++ [plain "\n"]
    ++ [⟨.cyan, number⟩, plain " ", ⟨.cyan, "|"⟩,
      plain (" " ++ Source.lineText source start.line ++ "\n")]
    ++ gutter ++ [plain (" " ++ repeated ' ' (start.column - 1)), ⟨.boldRed, carets⟩]
    ++ (if label.message = "" then [] else [plain " ", ⟨.boldRed, label.message⟩])
    ++ [plain "\n"]
    ++ gutter ++ [plain "\n"]

/-- A line below the source, introduced by a word. -/
def remark (word text : String) : List Fragment :=
  [plain "  ", ⟨.dim, "="⟩, plain (" " ++ word ++ ": " ++ text ++ "\n")]

/-- The fragments of the whole report. The source is shown where there is a label for it. -/
def fragments (diagnostic : Diagnostic) : List Fragment :=
  let head :=
    match diagnostic.code with
    | some code => "error[" ++ code ++ "]"
    | none => "error"
  let snippet :=
    match diagnostic.label, diagnostic.source with
    | some label, some source => labelFragments label source
    | _, _ => []
  let help :=
    match diagnostic.suggestion with
    | some suggestion => remark "help" suggestion
    | none => []
  [⟨.boldRed, head⟩, plain ": ", ⟨.bold, diagnostic.message⟩, plain "\n"]
    ++ snippet ++ diagnostic.notes.flatMap (remark "note") ++ help

/-- The report as text for a terminal. -/
def render (colored : Bool) (diagnostic : Diagnostic) : String :=
  String.join (diagnostic.fragments.map (Fragment.render colored))

end Diagnostic

end StackScript

import StackScript.Source.Span

/-! Lines and columns of a source text. Lines end at a line feed and are counted from one;
columns count characters from one, so that a caret under a line stands below the character
it means.
-/

namespace StackScript.Source

/-- A place in a text as a reader counts it. -/
structure Position where
  line : Nat
  column : Nat
deriving DecidableEq, Repr, Inhabited

/-- The position of an offset in the text that follows byte `reached`, which stands at `here` in a
line that started at byte `lineStart`. An offset past the end counts as the end, and one
inside a character is counted in bytes from the start of its line.
-/
def positionFrom (offset : Nat) (text : List Char) (reached lineStart : Nat) (here : Position)
    : Position :=
  match text with
  | [] => here
  | c :: rest =>
      let next := reached + c.utf8Size
      if offset ≤ reached then here
      else if offset < next then ⟨here.line, offset - lineStart + 1⟩
      else if c = '\n' then positionFrom offset rest next next ⟨here.line + 1, 1⟩
      else positionFrom offset rest next lineStart ⟨here.line, here.column + 1⟩

/-- The position of a byte offset. -/
def position (source : String) (offset : Nat) : Position :=
  positionFrom offset source.toList 0 0 ⟨1, 1⟩

/-- The text cut at its line feeds: one line more than there are line feeds. -/
def splitLines : List Char → List (List Char)
  | [] => [[]]
  | c :: rest =>
      match splitLines rest with
      | [] => [[c]]
      | line :: lines => if c = '\n' then [] :: line :: lines else (c :: line) :: lines

/-- A line without the carriage returns at its end. -/
def trimReturns (line : List Char) : List Char :=
  (line.reverse.dropWhile (· = '\r')).reverse

/-- The number of lines. -/
def lineCount (source : String) : Nat :=
  source.toList.count '\n' + 1

/-- The text of the line with the given number, without its end; empty if there is none. -/
def lineText (source : String) (line : Nat) : String :=
  if line = 0 then ""
  else String.ofList (trimReturns ((splitLines source.toList)[line - 1]?.getD []))

end StackScript.Source

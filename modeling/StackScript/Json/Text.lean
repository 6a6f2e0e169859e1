import StackScript.Binary64.DecimalText
import StackScript.Json.Basic

/-! The text of JSON values, on one line or indented. Strings escape the quote, the backslash
and the characters below the space, and nothing else; numbers that are not finite have no
JSON form and are written as null.
-/

namespace StackScript.Json

/-- The style of numbers in JSON: always a point, and an exponent outside the first digit's
powers -5 to 15.
-/
def numberStyle : Binary64.DecimalStyle where
  tie := .even
  positional := fun decade => -5 ≤ decade && decade ≤ 15
  pointed := true
  infinite := "null"
  undefined := "null"

/-- A number as JSON text. -/
def numberText (x : Binary64) : String :=
  if x.isNaN || x.isInfinite then "null" else x.format numberStyle

/-- One hexadecimal digit in lower case. -/
def hexDigit (n : Nat) : Char :=
  if n < 10 then Char.ofNat ('0'.toNat + n) else Char.ofNat ('a'.toNat + n - 10)

/-- A character inside a quoted string. -/
def escape (c : Char) : List Char :=
  if c = '"' then ['\\', '"']
  else if c = '\\' then ['\\', '\\']
  else if c = '\n' then ['\\', 'n']
  else if c = '\r' then ['\\', 'r']
  else if c = '\t' then ['\\', 't']
  else if c.toNat = 8 then ['\\', 'b']
  else if c.toNat = 12 then ['\\', 'f']
  else if c.toNat < 32 then
    ['\\', 'u', '0', '0', hexDigit (c.toNat / 16), hexDigit (c.toNat % 16)]
  else [c]

/-- A quoted string. -/
def quote (text : String) : String :=
  String.ofList ('"' :: (text.toList.flatMap escape ++ ['"']))

/-- An item is smaller than the array. -/
theorem sizeOf_item_lt {item : Json} {items : List Json} (member : item ∈ items)
    : sizeOf item < 1 + sizeOf items := by
  have := List.sizeOf_lt_of_mem member
  omega

/-- The value of a field is smaller than the object. -/
theorem sizeOf_value_lt {field : String × Json} {fields : List (String × Json)}
    (member : field ∈ fields)
    : sizeOf field.2 < 1 + sizeOf fields := by
  have outer := List.sizeOf_lt_of_mem member
  have inner : sizeOf field = 1 + sizeOf field.1 + sizeOf field.2 := by
    cases field; rfl
  omega

/-- The text of a value on one line, without spaces. -/
def compact : Json → String
  | .null => "null"
  | .bool value => if value then "true" else "false"
  | .int value => toString value
  | .number value => numberText value
  | .string value => quote value
  | .array items => "[" ++ ",".intercalate (items.map compact) ++ "]"
  | .object fields =>
      "\x7b"
        ++ ",".intercalate (fields.map fun field => quote field.1 ++ ":" ++ compact field.2)
        ++ "\x7d"
termination_by value => value
decreasing_by
  all_goals simp_wf
  all_goals first
    | exact sizeOf_value_lt ‹_›
    | exact sizeOf_item_lt ‹_›

/-- The start of a line at the given depth, two spaces for each level. -/
def newLine (depth : Nat) : String :=
  "\n" ++ String.ofList (List.replicate (2 * depth) ' ')

/-- Texts between two brackets, each on a line of its own, or the brackets alone. -/
def bracketed (opening closing : String) (depth : Nat) (texts : List String) : String :=
  if texts.isEmpty then opening ++ closing
  else
    opening ++ ",".intercalate (texts.map (newLine (depth + 1) ++ ·)) ++ newLine depth ++ closing

/-- The text of a value with every item and every field on a line of its own. -/
def indented (depth : Nat) : Json → String
  | .array items => bracketed "[" "]" depth (items.map (indented (depth + 1)))
  | .object fields =>
      bracketed "\x7b" "\x7d" depth
        (fields.map fun field => quote field.1 ++ ": " ++ indented (depth + 1) field.2)
  | value => compact value
termination_by value => value
decreasing_by
  all_goals simp_wf
  all_goals first
    | exact sizeOf_value_lt ‹_›
    | exact sizeOf_item_lt ‹_›

/-- The value with the fields of every object in the order of their names. -/
def sorted : Json → Json
  | .array items => .array (items.map sorted)
  | .object fields =>
      .object
        ((fields.map fun field => (field.1, sorted field.2)).mergeSort
          fun a b => decide (a.1 ≤ b.1))
  | value => value
termination_by value => value
decreasing_by
  all_goals simp_wf
  all_goals first
    | exact sizeOf_value_lt ‹_›
    | exact sizeOf_item_lt ‹_›

end StackScript.Json

import StackScript.Binary64.Basic

/-! JSON values whose objects keep their fields in the order in which they were written. -/

namespace StackScript

/-- A JSON value. Whole numbers and binary64 numbers are kept apart, for they are written
differently.
-/
inductive Json
  | null
  | bool (value : Bool)
  | int (value : Int)
  | number (value : Binary64)
  | string (value : String)
  | array (items : List Json)
  | object (fields : List (String × Json))
deriving Inhabited

namespace Json

/-- A natural number as JSON. -/
def nat (n : Nat) : Json :=
  .int n

/-- A value that may be missing; null stands for the missing one. -/
def ofOption {α : Type} (encode : α → Json) : Option α → Json
  | none => .null
  | some value => encode value

/-- The value of a field of an object. -/
def field? (name : String) (fields : List (String × Json)) : Option Json :=
  (fields.find? fun entry => entry.1 = name).map Prod.snd

end Json

end StackScript

import StackScript.Text.Unprintable

/-! Strings as listings show them: between quotes, on one line, with every character either
itself or an escape that names it.
-/

namespace StackScript.Text

/-- The escape that names a character by its number. -/
def numberedEscape (c : Char) : List Char :=
  ['\\', 'u', '\x7b'] ++ Nat.toDigits 16 c.toNat ++ ['\x7d']

/-- A character inside a listed string. -/
def listedChar (c : Char) : List Char :=
  if c = '\x00' then ['\\', '0']
  else if c = '\t' then ['\\', 't']
  else if c = '\r' then ['\\', 'r']
  else if c = '\n' then ['\\', 'n']
  else if c = '\\' then ['\\', '\\']
  else if c = '"' then ['\\', '"']
  else if c.toNat < 32 || c.toNat = 127 then numberedEscape c
  else if c.toNat < 127 then [c]
  else if Unprintable.contains c then numberedEscape c
  else [c]

/-- A string between quotes. -/
def quoted (text : String) : String :=
  String.ofList ('"' :: (text.toList.flatMap listedChar ++ ['"']))

end StackScript.Text

import StackScript.Binary64.Rounding

/-! Reading a number from decimal text. The text is an optional sign and either a word for
infinity or NaN, in any case, or digits with an optional point and an optional exponent; the
result is the nearest number.
-/

namespace StackScript.Binary64

/-- The value of a run of decimal digits. -/
def digitsValue (digits : List Char) : Nat :=
  digits.foldl (fun value c => 10 * value + (c.toNat - '0'.toNat)) 0

/-- The number nearest to the digits times a power of ten. Powers that leave the range of
finite numbers by far are settled by their size alone.
-/
def ofDecimal (negative : Bool) (digits : List Char) (power : Int) : Binary64 :=
  let digits := digits.dropWhile (· = '0')
  let decade := power + digits.length
  if digits.isEmpty then zero negative
  else if 310 < decade then infinity negative
  else if decade < -330 then zero negative
  else if 0 ≤ power then ofRatio negative (digitsValue digits * Nat.pow 10 power.toNat) 1
  else ofRatio negative (digitsValue digits) (Nat.pow 10 (-power).toNat)

/-- A sign and what follows it; no sign is a plus. -/
def splitSign : List Char → Bool × List Char
  | '-' :: rest => (true, rest)
  | '+' :: rest => (false, rest)
  | text => (false, text)

/-- The power of ten given by what follows the digits, if that is nothing or an exponent. -/
def readPower : List Char → Option Int
  | [] => some 0
  | mark :: text =>
      let (negative, digits) := splitSign text
      if (mark = 'e' || mark = 'E') && !digits.isEmpty && digits.all Char.isDigit then
        some (if negative then -(digitsValue digits : Int) else digitsValue digits)
      else none

/-- A number without its sign: digits before or after a point, then an exponent. -/
def readUnsigned (negative : Bool) (text : List Char) : Option Binary64 :=
  let whole := text.takeWhile Char.isDigit
  let rest := text.dropWhile Char.isDigit
  let (fraction, rest) :=
    match rest with
    | '.' :: rest => (rest.takeWhile Char.isDigit, rest.dropWhile Char.isDigit)
    | _ => ([], rest)
  if whole.isEmpty && fraction.isEmpty then none
  else
    (readPower rest).map fun power =>
      ofDecimal negative (whole ++ fraction) (power - fraction.length)

/-- Reads a number, or refuses text that is none. -/
def ofText? (text : String) : Option Binary64 :=
  let (negative, rest) := splitSign text.toList
  match String.ofList (rest.map Char.toLower) with
  | "inf" | "infinity" => some (infinity negative)
  | "nan" => some (nan negative)
  | _ => readUnsigned negative rest

end StackScript.Binary64

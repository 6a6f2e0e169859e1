import StackScript.Binary64.Shortest

/-! Writing a number as decimal text. The digits are the shortest that read back; a style
says how they are set: when the point stands among them and when a power of ten follows.
-/

namespace StackScript.Binary64

/-- The conventions of one way to write numbers. -/
structure DecimalStyle where
  tie : Tie
  /-- The powers of ten of the first digit for which no exponent is written. -/
  positional : Int → Bool
  /-- A whole number keeps a zero behind the point. -/
  pointed : Bool
  infinite : String
  undefined : String

/-- The decimal digits of a natural number, most significant first. -/
def digitsOf (n : Nat) : List Char :=
  Nat.toDigits 10 n

/-- A list without the zeros at its end. -/
def dropTrailingZeros (digits : List Char) : List Char :=
  (digits.reverse.dropWhile (· = '0')).reverse

/-- Digits set around the point, the first of them standing for the given power of ten. -/
def setPositional (pointed : Bool) (digits : List Char) (decade : Int) : List Char :=
  if decade < 0 then
    '0' :: '.' :: (List.replicate (-decade - 1).toNat '0' ++ digits)
  else
    let wholeLength := decade.toNat + 1
    let whole := digits.take wholeLength
    let padding := List.replicate (wholeLength - digits.length) '0'
    let fraction := digits.drop wholeLength
    if fraction.isEmpty then
      whole ++ padding ++ (if pointed then ['.', '0'] else [])
    else whole ++ '.' :: fraction

/-- Digits set with the point behind the first and a signed power of ten at the end. -/
def setScientific (digits : List Char) (decade : Int) : List Char :=
  let fraction := digits.drop 1
  digits.take 1
    ++ (if fraction.isEmpty then [] else '.' :: fraction)
    ++ 'e' :: (if decade < 0 then '-' else '+') :: digitsOf decade.natAbs

/-- Writes a number in the given style. A NaN has no sign, a zero keeps its own. -/
def format (style : DecimalStyle) (x : Binary64) : String :=
  if x.isNaN then style.undefined
  else
    let body :=
      if x.isInfinite then style.infinite.toList
      else if x.isZero then setPositional style.pointed ['0'] 0
      else
        let decimal := x.shortest style.tie
        let all := digitsOf decimal.coefficient
        let digits := dropTrailingZeros all
        let decade := decimal.power + all.length - 1
        if style.positional decade then setPositional style.pointed digits decade
        else setScientific digits decade
    String.ofList (if x.isNegative then '-' :: body else body)

/-- The style of listings: positional throughout, without a point in whole numbers. -/
def plain : DecimalStyle where
  tie := .away
  positional := fun _ => true
  pointed := false
  infinite := "inf"
  undefined := "NaN"

end StackScript.Binary64

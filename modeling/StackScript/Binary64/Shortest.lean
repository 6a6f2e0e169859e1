import StackScript.Binary64.Basic

/-! The shortest decimal that reads back as a given number. The numbers that round to a
finite number fill an interval around it, with its ends if its significand is even. The
decimals with one, two, three, … digits form finer and finer grids, and the first grid with
a point in the interval gives the digits: of two such points the nearer, and of two equally
near ones the point that the tie rule names.
-/

namespace StackScript.Binary64

/-- Which of two equally near decimals is taken. -/
inductive Tie
  | away
  | even
deriving DecidableEq, Repr

/-- A coefficient times a power of ten. -/
structure Decimal where
  coefficient : Nat
  power : Int
deriving DecidableEq, Repr

/-- A positive number in quarter units of its last place, as a multiple of a ratio that is
shared by all three points: the number and the ends of the interval that rounds to it.
-/
structure Neighbourhood where
  low : Nat
  centre : Nat
  high : Nat
  /-- The ends themselves round to the number. -/
  closed : Bool
  scaleUp : Nat
  scaleDown : Nat

/-- The neighbourhood of a finite positive number. Below a power of two the spacing of the
numbers halves, and with it the lower half of the interval.
-/
def neighbourhood (x : Binary64) : Neighbourhood :=
  let m := x.significand
  let narrow := x.fractionField = 0 && 1 < x.exponentField
  let quarter := x.exponent - 2
  { low := 4 * m - (if narrow then 1 else 2)
    centre := 4 * m
    high := 4 * m + 2
    closed := m % 2 = 0
    scaleUp := Nat.pow 2 quarter.toNat
    scaleDown := Nat.pow 2 (-quarter).toNat }

namespace Neighbourhood

/-- The power of ten does not exceed the number. -/
def reaches (area : Neighbourhood) (power : Int) : Bool :=
  Nat.pow 10 power.toNat * area.scaleDown
    ≤ area.centre * area.scaleUp * Nat.pow 10 (-power).toNat

/-- The greatest power of ten that does not exceed the number. The binary logarithm gives it
up to one unit, so that three powers are tried.
-/
def decade (area : Neighbourhood) : Int :=
  let logarithm : Int :=
    (area.centre * area.scaleUp).log2 - (area.scaleDown.log2 : Int)
  let estimate := (logarithm * 30103) / 100000
  if area.reaches (estimate + 1) then estimate + 1
  else if area.reaches estimate then estimate
  else estimate - 1

/-- The points of the grid of the given power next to the number, if they round to it. -/
def onGrid? (area : Neighbourhood) (tie : Tie) (power : Int) : Option Nat :=
  let unit := area.scaleDown * Nat.pow 10 power.toNat
  let scale := area.scaleUp * Nat.pow 10 (-power).toNat
  let value := area.centre * scale
  let below := value / unit
  let above := below + 1
  let lowEnd := area.low * scale
  let highEnd := area.high * scale
  let fitsBelow := lowEnd < below * unit || (area.closed && lowEnd = below * unit)
  let fitsAbove := above * unit < highEnd || (area.closed && above * unit = highEnd)
  -- The point below is the number itself if the number lies on the grid.
  if fitsBelow && fitsAbove then
    let twice := 2 * (value % unit)
    if twice < unit then some below
    else if unit < twice then some above
    else
      match tie with
      | .away => some above
      | .even => some (if below % 2 = 0 then below else above)
  else if fitsBelow then some below
  else if fitsAbove then some above
  else none

/-- The first grid with a point in the interval, from the given power of ten down. The grid
of seventeen digits always has one, so that seventeen tries are enough.
-/
def search (area : Neighbourhood) (tie : Tie) (power : Int) : Nat → Decimal
  | 0 => ⟨0, power⟩
  | tries + 1 =>
      match area.onGrid? tie power with
      | some coefficient => ⟨coefficient, power⟩
      | none => area.search tie (power - 1) tries

end Neighbourhood

/-- The shortest decimal of a finite number other than zero, without its sign. -/
def shortest (tie : Tie) (x : Binary64) : Decimal :=
  let area := x.neighbourhood
  area.search tie area.decade 17

end StackScript.Binary64

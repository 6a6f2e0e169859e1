/-! Binary64 numbers as bit patterns: their fields, their order and their arithmetic.
A pattern keeps every payload of a NaN apart, so that code which stores numbers can be read
back exactly; the comparisons follow the value order, in which a NaN is unordered and the
two zeros are equal.
-/

namespace StackScript

/-- A binary64 number, given by its 64 bits. -/
structure Binary64 where
  bits : UInt64
deriving DecidableEq, Repr, Inhabited

namespace Binary64

/-- The machine number with these bits. -/
def toFloat (x : Binary64) : Float :=
  Float.ofBits x.bits

/-- The bits of a machine number. -/
def ofFloat (x : Float) : Binary64 :=
  ⟨x.toBits⟩

/-- The bits below the sign: exponent field and fraction field, as one natural number. -/
def magnitude (x : Binary64) : Nat :=
  x.bits.toNat % Nat.pow 2 63

/-- The sign bit is set. -/
def isNegative (x : Binary64) : Bool :=
  Nat.pow 2 63 ≤ x.bits.toNat

/-- The eleven exponent bits. -/
def exponentField (x : Binary64) : Nat :=
  x.magnitude / Nat.pow 2 52

/-- The fifty-two fraction bits. -/
def fractionField (x : Binary64) : Nat :=
  x.magnitude % Nat.pow 2 52

/-- The number with the given sign and the given bits below it. -/
def ofMagnitude (negative : Bool) (magnitude : Nat) : Binary64 :=
  ⟨UInt64.ofNat ((if negative then Nat.pow 2 63 else 0) + magnitude)⟩

/-- The bits below the sign of an infinity; a greater magnitude is a NaN. -/
def infiniteMagnitude : Nat :=
  2047 * Nat.pow 2 52

/-- The infinity of the given sign. -/
def infinity (negative : Bool) : Binary64 :=
  ofMagnitude negative infiniteMagnitude

/-- The quiet NaN with an empty payload and the given sign. -/
def nan (negative : Bool) : Binary64 :=
  ofMagnitude negative (infiniteMagnitude + Nat.pow 2 51)

/-- The zero of the given sign. -/
def zero (negative : Bool) : Binary64 :=
  ofMagnitude negative 0

def isNaN (x : Binary64) : Bool :=
  infiniteMagnitude < x.magnitude

def isInfinite (x : Binary64) : Bool :=
  x.magnitude = infiniteMagnitude

def isZero (x : Binary64) : Bool :=
  x.magnitude = 0

/-- The integer that a finite magnitude is a multiple of a power of two of. -/
def significand (x : Binary64) : Nat :=
  if x.exponentField = 0 then x.fractionField else Nat.pow 2 52 + x.fractionField

/-- The power of two that scales the significand of a finite number. -/
def exponent (x : Binary64) : Int :=
  (max x.exponentField 1 : Int) - 1075

/-- The place of a number in the value order. Both zeros have place zero, and a NaN has no
meaningful place.
-/
def rank (x : Binary64) : Int :=
  if x.isNegative then -(x.magnitude : Int) else x.magnitude

/-- Value equality: false of a NaN, true of the two zeros. -/
def equal (x y : Binary64) : Bool :=
  !x.isNaN && !y.isNaN && x.rank = y.rank

/-- Strict value order; a NaN is unordered. -/
def less (x y : Binary64) : Bool :=
  !x.isNaN && !y.isNaN && x.rank < y.rank

/-- Value order; a NaN is unordered. -/
def lessOrEqual (x y : Binary64) : Bool :=
  !x.isNaN && !y.isNaN && x.rank ≤ y.rank

def add (x y : Binary64) : Binary64 :=
  ofFloat (x.toFloat + y.toFloat)

def subtract (x y : Binary64) : Binary64 :=
  ofFloat (x.toFloat - y.toFloat)

def multiply (x y : Binary64) : Binary64 :=
  ofFloat (x.toFloat * y.toFloat)

def divide (x y : Binary64) : Binary64 :=
  ofFloat (x.toFloat / y.toFloat)

end Binary64

end StackScript

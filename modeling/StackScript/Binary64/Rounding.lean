import StackScript.Binary64.Basic

/-! The binary64 number nearest to a ratio of natural numbers, ties to the even significand,
and the exact remainder of a division, which is such a ratio itself.
-/

namespace StackScript.Binary64

/-- The integer nearest to the quotient, ties to even. -/
def roundQuotient (numerator denominator : Nat) : Nat :=
  let quotient := numerator / denominator
  let twice := 2 * (numerator % denominator)
  if twice > denominator || (twice = denominator && quotient % 2 = 1) then quotient + 1
  else quotient

/-- The power of two by which a positive ratio is scaled so that its integer part has the
width of a significand, never below the power of the smallest positive number.
-/
def scaleOf (numerator denominator : Nat) : Int :=
  let estimate : Int := numerator.log2 - denominator.log2
  let reached :=
    if 0 ≤ estimate then denominator * Nat.pow 2 estimate.toNat ≤ numerator
    else denominator ≤ numerator * Nat.pow 2 (-estimate).toNat
  max (if reached then estimate - 52 else estimate - 53) (-1074)

/-- The number nearest to the ratio. The scaled significand counts as whole units of the
magnitude, so that a carry out of the significand lands in the exponent field by itself.
-/
def ofRatio (negative : Bool) (numerator denominator : Nat) : Binary64 :=
  if numerator = 0 then zero negative
  else
    let scale := scaleOf numerator denominator
    let significand :=
      if 0 ≤ scale then roundQuotient numerator (denominator * Nat.pow 2 scale.toNat)
      else roundQuotient (numerator * Nat.pow 2 (-scale).toNat) denominator
    let magnitude := (scale + 1074).toNat * Nat.pow 2 52 + significand
    if infiniteMagnitude ≤ magnitude then infinity negative
    else ofMagnitude negative magnitude

/-- The remainder of a division that truncates its quotient: it has the sign of the dividend,
and it is exact, for it is a multiple of both scales and smaller than the divisor.
-/
def remainder (x y : Binary64) : Binary64 :=
  if x.isNaN || y.isNaN || x.isInfinite || y.isZero then nan false
  else if x.isZero || y.isInfinite then x
  else
    let scale := min x.exponent y.exponent
    let dividend := x.significand * Nat.pow 2 (x.exponent - scale).toNat
    let divisor := y.significand * Nat.pow 2 (y.exponent - scale).toNat
    let rest := dividend % divisor
    if 0 ≤ scale then ofRatio x.isNegative (rest * Nat.pow 2 scale.toNat) 1
    else ofRatio x.isNegative rest (Nat.pow 2 (-scale).toNat)

end StackScript.Binary64

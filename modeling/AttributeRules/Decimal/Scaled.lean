import AttributeRules.Binary64.Basic

/-!
# Decimal fractions as floating point

A decimal number given as digits and an exponent is turned into floating point
in two roundings: the digits are rounded once, and the product or quotient
with a power of ten once more. Exponents beyond the largest power of ten that
the format holds are first brought within reach, by dividing by that power as
often as it takes. The two roundings can miss the nearest value by one unit in
the last place, and are kept because the numbers read are those of the stored
documents.
-/

namespace AttributeRules

namespace Decimal

/-- The largest exponent of a power of ten that floating point holds. -/
def topExponent : Nat := 308

/-- The floating-point power of ten. -/
def powerOfTen (n : Nat) : Binary64 := Binary64.ofNat (Nat.pow 10 n)

/-- A value times a power of ten, unless the product is too large. -/
def scale? (x : Binary64) (e : Int) : Option Binary64 :=
  if e < -topExponent then
    -- zero stays zero, and every other value gets there
    if x.magnitude = 0 then some x
    else scale? (x.div (powerOfTen topExponent)) (e + topExponent)
  else if e < 0 then some (x.div (powerOfTen (-e).toNat))
  else if e ≤ topExponent then
    let product := x.mul (powerOfTen e.toNat)
    if product.isFinite then some product else none
  else if x.magnitude = 0 then some x
  else none
termination_by e.natAbs
decreasing_by
  simp only [topExponent] at *
  omega

/-- The value of `m * 10 ^ e`, unless it is too large. -/
def scaled? (m : Nat) (e : Int) : Option Binary64 := scale? (Binary64.ofNat m) e

end Decimal

end AttributeRules

import AttributeRules.Binary64.Basic
import AttributeRules.Decimal.Integer

/-!
# The shortest decimal of a floating-point value

A finite value is written with the fewest decimal digits that tell it apart
from its neighbours. The real numbers that round to the value form an
interval, which holds its ends exactly when the significand is even; among the
decimals of the least length in that interval the one nearest to the value is
taken, and of two that are equally near the one whose last digit is even. The
interval holds a decimal of a given length just when it holds one of the two
that enclose the value, so only those are tried, in exact arithmetic.
-/

namespace AttributeRules

namespace Binary64

/-- A decimal number, `digits * 10 ^ exponent`. -/
structure ShortDecimal where
  /-- The digits, as a natural number. -/
  digits : Nat
  /-- The power of ten. -/
  exponent : Int
deriving DecidableEq, Repr

/-- The interval of reals that round to a value, in units of `2 ^ exponent`. -/
structure RoundingInterval where
  /-- The lower end. -/
  low : Nat
  /-- The value itself. -/
  mid : Nat
  /-- The upper end. -/
  high : Nat
  /-- The power of two that all three are multiples of. -/
  exponent : Int
  /-- Whether the ends belong to the interval. -/
  closed : Bool

/-- The interval of reals that round to a finite value without its sign. The
lower neighbour of a power of two is only half as far away as the upper. -/
def roundingInterval (x : Binary64) : RoundingInterval :=
  let (m, e) := x.decode
  let atPower := m = exponentWeight ∧ 2 * exponentWeight ≤ x.magnitude
  { low := 4 * m - if atPower then 1 else 2
    mid := 4 * m
    high := 4 * m + 2
    exponent := e - 2
    closed := m % 2 = 0 }

namespace RoundingInterval

/-- The exponent `k` with `10 ^ (k - 1) ≤ x < 10 ^ k` for a positive ratio
`x`. -/
def decimalExponent (num den : Nat) : Int :=
  if den ≤ num then (Decimal.ofNat (num / den)).length
  else 1 - (Decimal.ofNat ((den - 1) / num)).length

/-- The decimal of a given power of ten in the interval that is nearest to the
value, if there is one. -/
def decimalAt? (i : RoundingInterval) (power : Int) : Option ShortDecimal :=
  let unit := Nat.pow 10 power.toNat * Nat.pow 2 (-i.exponent).toNat
  let scale := Nat.pow 10 (-power).toNat * Nat.pow 2 i.exponent.toNat
  let below := i.mid * scale / unit
  let above := below + 1
  let holds (n : Nat) : Bool :=
    if i.closed then i.low * scale ≤ n * unit ∧ n * unit ≤ i.high * scale
    else i.low * scale < n * unit ∧ n * unit < i.high * scale
  let belowGap := i.mid * scale - below * unit
  let aboveGap := above * unit - i.mid * scale
  let belowWins := belowGap < aboveGap ∨ (belowGap = aboveGap ∧ below % 2 = 0)
  if holds below ∧ (belowWins ∨ ¬ holds above) then some ⟨below, power⟩
  else if holds above then some ⟨above, power⟩
  else none

/-- The shortest decimal in the interval around a positive value. Seventeen
digits always suffice. -/
def shortest (i : RoundingInterval) : ShortDecimal :=
  let (num, den) := (i.mid * Nat.pow 2 i.exponent.toNat, Nat.pow 2 (-i.exponent).toNat)
  let top := decimalExponent num den
  let lengths := (List.range 17).map fun n => top - (n + 1 : Nat)
  (lengths.findSome? i.decimalAt?).getD ⟨0, 0⟩

end RoundingInterval

/-- The shortest decimal of a finite value that is not zero, without its
sign. -/
def shortest (x : Binary64) : ShortDecimal := x.roundingInterval.shortest

end Binary64

end AttributeRules

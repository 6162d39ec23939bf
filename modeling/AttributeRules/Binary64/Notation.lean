import AttributeRules.Binary64.Shortest

/-!
# The text of a floating-point value

The shortest decimal of a value is laid out in one of two ways, by the exponent
of its first digit. From a hundred-thousandth up to sixteen digits before the
point it is positional, and then always has a point with a digit on either
side. Beyond that it is scientific: the first digit, a point where more digits
follow, and an exponent that always has a sign and no leading zeros.
-/

namespace AttributeRules

namespace Binary64

/-- The least exponent of the first digit that is written positionally. -/
def leastPositional : Int := -5

/-- The greatest exponent of the first digit that is written positionally. -/
def greatestPositional : Int := 15

namespace ShortDecimal

/-- The digits from the first one to the last that is not zero. -/
def significant (d : ShortDecimal) : Text :=
  ((Decimal.ofNat d.digits).reverse.dropWhile (· = '0')).reverse

/-- The exponent of the first digit. -/
def leadingExponent (d : ShortDecimal) : Int :=
  d.exponent + (Decimal.ofNat d.digits).length - 1

/-- Digits in positional form, when the first of them has a given exponent. -/
def positional (digits : Text) (exponent : Int) : Text :=
  let padded := List.replicate (-exponent).toNat '0' ++ digits
  -- a number below one has the single digit zero before the point
  let point := exponent.toNat + 1
  let whole := padded.take point ++ List.replicate (point - padded.length) '0'
  let fraction := padded.drop point
  whole ++ '.' :: if fraction = [] then ['0'] else fraction

/-- An exponent with its sign. -/
def signedExponent (e : Int) : Text :=
  (if e < 0 then '-' else '+') :: Decimal.ofNat e.natAbs

/-- Digits in scientific form, when the first of them has a given exponent. -/
def scientific (digits : Text) (exponent : Int) : Text :=
  let mantissa := match digits with
    | first :: second :: rest => first :: '.' :: second :: rest
    | digits => digits
  mantissa ++ 'e' :: signedExponent exponent

/-- The text of a decimal that is not zero. -/
def render (d : ShortDecimal) : Text :=
  let e := d.leadingExponent
  if leastPositional ≤ e ∧ e ≤ greatestPositional then positional d.significant e
  else scientific d.significant e

end ShortDecimal

/-- The text of a finite value. Zero has a sign like every other value. -/
def render (x : Binary64) : Text :=
  let magnitude := if x.magnitude = 0 then ['0', '.', '0'] else x.shortest.render
  if x.isNegative then '-' :: magnitude else magnitude

/-- The positional form ends where a seventeenth digit would stand before the
point. -/
example : (ofNat 1234567890123456).render = "1234567890123456.0".toList ∧
    (ofNat 12345678901234568).render = "1.2345678901234568e+16".toList := by decide +kernel

end Binary64

end AttributeRules

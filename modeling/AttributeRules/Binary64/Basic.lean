/-!
# Binary floating point of double precision

A value of the format binary64 is kept as its sixty-four bits, so that every
value, each NaN included, equals itself and is given back unchanged. Two
things are asked of it. It is compared, and the order of two values is read
off their bits: with the sign put in front, magnitudes are ordered like the
integers their bits spell. And it is made from an exact ratio of natural
numbers by rounding to the nearest value of the format, with a tie going to
the even neighbour; multiplication and division are the exact operation
followed by that rounding.
-/

namespace AttributeRules

/-- A floating-point value, as the bits that encode it. -/
structure Binary64 where
  /-- Sign, exponent and fraction, from the highest bit down. -/
  bits : UInt64
deriving DecidableEq, Repr

namespace Binary64

/-- The weight of the sign bit. -/
def signWeight : Nat := 0x8000000000000000

/-- The weight of the lowest bit of the exponent, which is also the weight of
the leading bit that a normal significand does not spell out. -/
def exponentWeight : Nat := 0x10000000000000

/-- Whether the sign bit is set. -/
def isNegative (x : Binary64) : Bool := signWeight ≤ x.bits.toNat

/-- The bits without the sign. -/
def magnitude (x : Binary64) : Nat := x.bits.toNat % signWeight

/-- The magnitude of infinity; what is above it is no number. -/
def infiniteMagnitude : Nat := 0x7FF * exponentWeight

/-- Whether the value is a number. -/
def isNumber (x : Binary64) : Bool := x.magnitude ≤ infiniteMagnitude

/-- Whether the value is a number other than the infinities. -/
def isFinite (x : Binary64) : Bool := x.magnitude < infiniteMagnitude

/-- The place of a number in the order of all numbers. Both zeros have the
same. -/
def rank (x : Binary64) : Int := if x.isNegative then -x.magnitude else x.magnitude

/-- Whether both values are numbers and the first is the smaller. -/
def lt (x y : Binary64) : Bool := x.isNumber && y.isNumber && x.rank < y.rank

/-- The value with its sign bit flipped. -/
def neg (x : Binary64) : Binary64 := ⟨x.bits ^^^ 0x8000000000000000⟩

/-- The value with a given magnitude and no sign; magnitudes beyond the
format become infinity. -/
def ofMagnitude (n : Nat) : Binary64 := ⟨(min n infiniteMagnitude).toUInt64⟩

/-- The significand and exponent of a finite value without its sign: it is
`m * 2 ^ e`. -/
def decode (x : Binary64) : Nat × Int :=
  let exponent : Nat := x.magnitude / exponentWeight
  let fraction : Nat := x.magnitude % exponentWeight
  if exponent = 0 then (fraction, -1074)
  else (fraction + exponentWeight, (exponent : Int) - 1075)

/-- A positive value as a ratio of natural numbers, without its sign. -/
def ratio (x : Binary64) : Nat × Nat :=
  let (m, e) := x.decode
  (m * Nat.pow 2 e.toNat, Nat.pow 2 (-e).toNat)

/-! ## Rounding a ratio -/

/-- The natural number nearest to a ratio, the even one of two. -/
def roundRatio (num den : Nat) : Nat :=
  let q := num / den
  let r := num % den
  if den < 2 * r ∨ (2 * r = den ∧ q % 2 = 1) then q + 1 else q

/-- The ratio in units of `2 ^ e`. -/
def inUnits (num den : Nat) (e : Int) : Nat × Nat :=
  (num * Nat.pow 2 (-e).toNat, den * Nat.pow 2 e.toNat)

/-- The exponent at which a positive ratio is rounded: its significand then has
fifty-three bits, or fewer where the exponent can go no lower. -/
def roundingExponent (num den : Nat) : Int :=
  -- the two logarithms are rounded down, so this is right or one too low
  let low := max ((num.log2 : Int) - den.log2 - 53) (-1074)
  let (n, d) := inUnits num den low
  if 2 * exponentWeight ≤ n / d then low + 1 else low

/-- **The value nearest to a ratio**, the even one of two; a ratio beyond the
largest value gives infinity. A significand that rounds up to fifty-four bits
needs no case of its own, for its surplus bit raises the exponent. -/
def nearest (num den : Nat) : Binary64 :=
  if num = 0 then ofMagnitude 0
  else
    let e := roundingExponent num den
    let (n, d) := inUnits num den e
    -- a normal significand brings a bit of its own into the exponent
    ofMagnitude ((e + 1074).toNat * exponentWeight + roundRatio n d)

/-- The value nearest to a natural number. -/
def ofNat (n : Nat) : Binary64 := nearest n 1

/-- The value nearest to an integer. -/
def ofInt : Int → Binary64
  | .ofNat n => ofNat n
  | .negSucc n => (ofNat (n + 1)).neg

/-- The product of two finite values, without their signs. -/
def mul (x y : Binary64) : Binary64 :=
  let (n, d) := x.ratio
  let (n', d') := y.ratio
  nearest (n * n') (d * d')

/-- The quotient of two finite values, without their signs. -/
def div (x y : Binary64) : Binary64 :=
  let (n, d) := x.ratio
  let (n', d') := y.ratio
  nearest (n * d') (d * n')

example : ofInt (-2) = ⟨0xC000000000000000⟩ := by decide

/-- Halfway between two neighbours, the even one is taken; a little more than
halfway, the upper. -/
example : ofNat 0x10000000000000800 = ofNat 0x10000000000000000 ∧
    ofNat 0x10000000000000801 = ofNat 0x10000000000001000 := by decide

end Binary64

end AttributeRules

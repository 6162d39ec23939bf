import AttributeRules.Decimal.Integer
import AttributeRules.Decimal.Scaled
import AttributeRules.Json.Basic

/-!
# Numerals

A numeral is the spelling of a number in a JSON document: an optional minus
sign, digits without a leading zero, and optionally a fraction and an exponent.
What number it denotes is a second question, since some numerals denote none
that can be held.

A numeral without fraction and exponent denotes an integer where that fits
sixty-four bits, except that `-0` is the negative zero of floating point. Every
other numeral is read as floating point from as many of its leading digits as
fit an unsigned word of sixty-four bits.
-/

namespace AttributeRules

namespace Json

/-- The spelling of a number. -/
structure Numeral where
  /-- Whether a minus sign comes first. -/
  negative : Bool
  /-- The digits before the point. -/
  whole : Text
  /-- The digits after the point, if there is one. -/
  fraction : Option Text
  /-- The sign and the digits of the exponent, if there is one. -/
  exponent : Option (Bool × Text)
deriving DecidableEq, Repr

namespace Numeral

/-! ## Spelling -/

/-- Splits off the leading digits of a text, of which there has to be at least
one. -/
def splitDigits? (t : Text) : Option (Text × Text) :=
  match t.span Char.isDigit with
  | ([], _) => none
  | split => some split

/-- Splits off the sign of an exponent: whether it is negative. -/
def splitSign : Text → Bool × Text
  | '+' :: t => (false, t)
  | '-' :: t => (true, t)
  | t => (false, t)

/-- Splits off the digits before the point, which have no leading zero. -/
def splitWhole? (t : Text) : Option (Text × Text) :=
  (splitDigits? t).filter fun (digits, _) => digits.length = 1 ∨ digits.head? ≠ some '0'

/-- Splits off a fraction if a point comes first. -/
def splitFraction? : Text → Option (Option Text × Text)
  | '.' :: t => (splitDigits? t).map fun (digits, rest) => (some digits, rest)
  | t => some (none, t)

/-- Splits off an exponent if its letter comes first. -/
def splitExponent? : Text → Option (Option (Bool × Text) × Text)
  | [] => some (none, [])
  | c :: t =>
    if c = 'e' ∨ c = 'E' then
      let (negative, t) := splitSign t
      (splitDigits? t).map fun (digits, rest) => (some (negative, digits), rest)
    else some (none, c :: t)

/-- Reads a text that is exactly one numeral. -/
def ofText? (t : Text) : Option Numeral := do
  let (negative, t) := match t with
    | '-' :: t => (true, t)
    | t => (false, t)
  let (whole, t) ← splitWhole? t
  let (fraction, t) ← splitFraction? t
  let (exponent, t) ← splitExponent? t
  if t = [] then some ⟨negative, whole, fraction, exponent⟩ else none

/-! ## Value -/

/-- Appends digits to a number as long as the result fits sixty-four bits, and
gives back the digits that no longer fit. -/
def absorb (n : Nat) : Text → Nat × Text
  | [] => (n, [])
  | c :: t =>
    match Decimal.addDigit? n c with
    | some m => if m < UInt64.size then absorb m t else (n, c :: t)
    | none => (n, c :: t)

/-- The exponent as an integer. -/
def exponentValue (x : Numeral) : Int :=
  match x.exponent with
  | none => 0
  | some (negative, digits) =>
    let n : Int := (Decimal.natural? digits).getD 0
    if negative then -n else n

/-- The floating-point value of a numeral, unless it is too large. -/
def float? (x : Numeral) : Option Binary64 :=
  let fraction := x.fraction.getD []
  let (n, wholeLeft) := absorb 0 x.whole
  let (m, fractionLeft) := absorb n fraction
  -- a digit left over before the point counts as a zero, one after it not at all
  let shift : Int := wholeLeft.length - (fraction.length - fractionLeft.length : Nat)
  (Decimal.scaled? m (shift + x.exponentValue)).map fun y => if x.negative then y.neg else y

/-- The integer a numeral denotes: one that fits a word, with or without a
sign, and is not a negative zero. -/
def integer? (x : Numeral) : Option Int :=
  match x.fraction, x.exponent with
  | none, none =>
    let n := (Decimal.natural? x.whole).getD 0
    if x.negative then if n ≠ 0 ∧ 2 * n ≤ UInt64.size then some (-(n : Int)) else none
    else if n < UInt64.size then some n else none
  | _, _ => none

/-- The number a numeral denotes, unless it is too large. -/
def number? (x : Numeral) : Option Number :=
  match x.integer? with
  | some n => some (.integer n)
  | none => x.float?.map .float

end Numeral

end Json

end AttributeRules

import AttributeRules.Text.Basic

/-!
# Integers in decimal

An integer is written with at most one sign, `+` or `-`, and at least one
ASCII digit; leading zeros are allowed and mean nothing. `Decimal.integer?`
reads that form and bounds nothing: whoever needs a width compares the value.
Writing is canonical, without a plus sign or leading zeros.
-/

namespace AttributeRules

namespace Decimal

/-- The value of an ASCII digit. -/
def digit? (c : Char) : Option Nat :=
  if c.isDigit then some (c.toNat - '0'.toNat) else none

/-- Appends a digit to a number read so far. -/
def addDigit? (n : Nat) (c : Char) : Option Nat := (digit? c).map (10 * n + ·)

/-- The value of a run of one or more digits. -/
def natural? : Text → Option Nat
  | [] => none
  | t => t.foldlM addDigit? 0

/-- The value of a decimal integer. -/
def integer? : Text → Option Int
  | '-' :: t => (natural? t).map fun n => -(n : Int)
  | '+' :: t => (natural? t).map Int.ofNat
  | t => (natural? t).map Int.ofNat

/-- The digits of a natural number, without leading zeros. -/
def ofNat (n : Nat) : Text := Nat.toDigits 10 n

/-- An integer in decimal, with a minus sign where it is negative. -/
def ofInt : Int → Text
  | .ofNat n => ofNat n
  | .negSucc n => '-' :: ofNat (n + 1)

example : integer? "-007".toList = some (-7) := by decide

example : integer? "+-7".toList = none := by decide

example : ofInt (-120) = "-120".toList := by decide

end Decimal

end AttributeRules

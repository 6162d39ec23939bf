import AttributeRules.Json.Mismatch

/-!
# Values of attributes

The value of an attribute is an integer of sixty-four bits, a floating-point
number or a text. Floating-point values are compared by their bits, so a value
given as NaN is the same value when it is read back.

`Value.ofJson` reads a JSON value as the first of the three that it can be read
as. Every number can be read as floating point, hence an integer is an integer
where it fits and the nearest floating-point value where it does not.
-/

namespace AttributeRules

/-- The value of an attribute. -/
inductive Value where
  /-- An integer. -/
  | integer (n : Int64)
  /-- A floating-point number. -/
  | float (x : Binary64)
  /-- A text. -/
  | text (t : Text)
deriving DecidableEq, Repr

/-- The kinds of values. -/
inductive ValueKind where
  /-- Integers. -/
  | integer
  /-- Floating-point numbers. -/
  | float
  /-- Texts. -/
  | text
deriving DecidableEq, Repr

/-- The name of a kind of value. -/
def ValueKind.name : ValueKind → Text
  | integer => "integer".toList
  | float => "float".toList
  | text => "string".toList

/-- The integer of sixty-four bits with a given value, if there is one. -/
def int64? (n : Int) : Option Int64 :=
  if (Int64.ofInt n).toInt = n then some (Int64.ofInt n) else none

namespace Json

/-- Reads an integer of sixty-four bits. -/
def int64? : Json → Option Int64
  | number (.integer n) => AttributeRules.int64? n
  | _ => none

/-- Reads a number as floating point. -/
def float? : Json → Option Binary64
  | number (.integer n) => some (Binary64.ofInt n)
  | number (.float x) => some x
  | _ => none

/-- Reads a text. -/
def text? : Json → Option Text
  | string t => some t
  | _ => none

end Json

namespace Value

/-- The kind of a value. -/
def kind : Value → ValueKind
  | integer _ => .integer
  | float _ => .float
  | text _ => .text

/-- Whether the value is a number. -/
def isNumeric : Value → Bool
  | text _ => false
  | _ => true

/-- Reads a JSON value as the first kind of value it can be read as. -/
def ofJson (j : Json) : Except Json.Mismatch Value :=
  match j.int64?.map integer <|> j.float?.map float <|> j.text?.map text with
  | some v => .ok v
  | none => .error .noReading

end Value

end AttributeRules

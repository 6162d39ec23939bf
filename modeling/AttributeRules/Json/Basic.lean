import AttributeRules.Binary64.Basic
import AttributeRules.Fields

/-!
# JSON values

A decoded JSON value: what is left of a document when spelling, order of
members and repeated names are gone. Numbers come in two kinds. One that is
written without fraction and exponent and fits a machine word is an integer;
all others are floating point. The members of a decoded object form `Fields`.
-/

namespace AttributeRules

namespace Json

/-- A number. -/
inductive Number where
  /-- An integer of at most sixty-four bits. -/
  | integer (n : Int)
  /-- Any other number. -/
  | float (x : Binary64)
deriving DecidableEq, Repr

end Json

/-- A JSON value. -/
inductive Json where
  /-- The value `null`. -/
  | null
  /-- A truth value. -/
  | bool (b : Bool)
  /-- A number. -/
  | number (n : Json.Number)
  /-- A string. -/
  | string (t : Text)
  /-- A sequence of values. -/
  | array (elements : List Json)
  /-- Values by name. -/
  | object (members : List (Text × Json))

namespace Json

/-- Whether the value is `null`. -/
def isNull : Json → Bool
  | null => true
  | _ => false

/-- The kinds of JSON values. -/
inductive Kind where
  /-- The value `null`. -/
  | null
  /-- A truth value. -/
  | bool
  /-- A number. -/
  | number
  /-- A string. -/
  | string
  /-- A sequence of values. -/
  | array
  /-- Values by name. -/
  | object
deriving DecidableEq, Repr

/-- The name of a kind. -/
def Kind.name : Kind → Text
  | .null => "null".toList
  | .bool => "bool".toList
  | .number => "number".toList
  | .string => "string".toList
  | .array => "array".toList
  | .object => "object".toList

/-- The kind of a value. -/
def kind : Json → Kind
  | null => .null
  | bool _ => .bool
  | number _ => .number
  | string _ => .string
  | array _ => .array
  | object _ => .object

end Json

end AttributeRules

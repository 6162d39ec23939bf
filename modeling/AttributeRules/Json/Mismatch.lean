import AttributeRules.Binary64.Notation
import AttributeRules.Json.Basic
import AttributeRules.Text.Shown

/-!
# Values of the wrong shape

What can be wrong with a JSON value that is to be read as something more
particular. As everywhere, the causes are kept apart and the wording is in one
place.
-/

namespace AttributeRules

namespace Json

/-- What was found, as far as a message shows it. -/
inductive Found where
  /-- The value `null`. -/
  | null
  /-- A truth value. -/
  | bool (b : Bool)
  /-- An integer. -/
  | integer (n : Int)
  /-- A floating-point number. -/
  | float (x : Binary64)
  /-- A string. -/
  | string (t : Text)
  /-- An array. -/
  | sequence
  /-- An object. -/
  | map
deriving DecidableEq, Repr

/-- What a message shows of a value. -/
def found : Json → Found
  | null => .null
  | bool b => .bool b
  | number (.integer n) => .integer n
  | number (.float x) => .float x
  | string t => .string t
  | array _ => .sequence
  | object _ => .map

/-- What should have been found. -/
inductive Expected where
  /-- A text. -/
  | text
  /-- One of several names. -/
  | choice
  /-- No further content beside a name. -/
  | nothing
  /-- A number of things. -/
  | count
  /-- A node of a stored rule. -/
  | storedNode
  /-- A configuration. -/
  | config
deriving DecidableEq, Repr

/-- Why a value has not the shape it should have. -/
inductive Mismatch where
  /-- A value of another type was expected. -/
  | wrongType (found : Found) (expected : Expected)
  /-- A number of things is negative. -/
  | negativeCount (n : Int)
  /-- A name given as an object has not exactly one member. -/
  | notOneMember
  /-- A name is none of those it could be. -/
  | unknownChoice (name : Text) (choices : List Text)
  /-- A member has a name that means nothing. -/
  | unknownMember (name : Text) (known : List Text)
  /-- A member is missing. -/
  | memberMissing (name : Text)
  /-- The elements of a node in the form of an array are too few. -/
  | elementsMissing (found : Nat)
  /-- An array has more elements than it may. -/
  | elementsTrailing (length : Nat)
  /-- The value can be read in none of several ways. -/
  | noReading
deriving DecidableEq, Repr

/-- A text between backquotes. -/
def inBackquotes (t : Text) : Text := '\x60' :: t ++ ['\x60']

namespace Found

/-- The found value as a message shows it. -/
def shown : Found → Text
  | null => "null".toList
  | bool true => "boolean ".toList ++ inBackquotes "true".toList
  | bool false => "boolean ".toList ++ inBackquotes "false".toList
  | integer n => "integer ".toList ++ inBackquotes (Decimal.ofInt n)
  | float x => "floating point ".toList ++ inBackquotes x.render
  | string t => "string ".toList ++ t.shown
  | sequence => "sequence".toList
  | map => "map".toList

end Found

namespace Expected

/-- The expected type as a message names it. -/
def shown : Expected → Text
  | text => "a string".toList
  | choice => "string or map".toList
  | nothing => "unit".toList
  | count => "usize".toList
  | storedNode => "struct WireNode".toList
  | config => "struct EngineConfig".toList

end Expected

/-- Several names, one of which was expected. -/
def oneOf : List Text → Text
  | [a] => inBackquotes a
  | [a, b] => inBackquotes a ++ " or ".toList ++ inBackquotes b
  | names => "one of ".toList ++ ", ".toList.intercalate (names.map inBackquotes)

namespace Mismatch

/-- What is wrong, in words. -/
def reason : Mismatch → Text
  | wrongType found expected =>
    "invalid type: ".toList ++ found.shown ++ ", expected ".toList ++ expected.shown
  | negativeCount n =>
    "invalid value: ".toList ++ (Found.integer n).shown ++ ", expected ".toList
      ++ Expected.count.shown
  | notOneMember => "invalid value: map, expected map with a single key".toList
  | unknownChoice name choices =>
    "unknown variant ".toList ++ inBackquotes name ++ ", expected ".toList ++ oneOf choices
  | unknownMember name known =>
    "unknown field ".toList ++ inBackquotes name ++ ", expected ".toList ++ oneOf known
  | memberMissing name => "missing field ".toList ++ inBackquotes name
  | elementsMissing found =>
    "invalid length ".toList ++ Decimal.ofNat found ++ ", expected ".toList
      ++ Expected.storedNode.shown ++ " with 4 elements".toList
  | elementsTrailing length =>
    "invalid length ".toList ++ Decimal.ofNat length
      ++ ", expected fewer elements in array".toList
  | noReading => "data did not match any variant of untagged enum Value".toList

/-- The message of the error. -/
def message (e : Mismatch) : Text := "JSON error: ".toList ++ e.reason

end Mismatch

end Json

end AttributeRules

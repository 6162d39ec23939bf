import AttributeRules.Comparator
import AttributeRules.Literal.Basic

/-!
# Conditions

A condition compares one field of a record with a literal. Its text is its
three parts with one space between them, each in its own spelling; this text
is also what is stored for it.
-/

namespace AttributeRules

/-- A comparison of a field with a literal, such as `age > 30`. -/
structure Condition where
  /-- The name of the field. -/
  field : Text
  /-- How the field is compared. -/
  comparator : Comparator
  /-- What the field is compared with. -/
  literal : Literal
deriving DecidableEq, Repr

namespace Condition

/-- The text of a condition. -/
def render (c : Condition) : Text :=
  c.field ++ ' ' :: c.comparator.render ++ ' ' :: c.literal.render

end Condition

end AttributeRules

import AttributeRules.Text.Basic

/-!
# Comparators

A condition compares a field with a literal in one of three ways.
-/

namespace AttributeRules

/-- How a condition compares. -/
inductive Comparator where
  /-- The field is greater than the literal. -/
  | greater
  /-- The field is less than the literal. -/
  | less
  /-- The field equals the literal. -/
  | equal
deriving DecidableEq, Repr

namespace Comparator

/-- The sign of the comparator. -/
def render : Comparator → Text
  | greater => ['>']
  | less => ['<']
  | equal => ['=']

/-- Reads the sign of a comparator. -/
def ofText? : Text → Option Comparator
  | ['>'] => some greater
  | ['<'] => some less
  | ['='] => some equal
  | _ => none

@[simp] theorem ofText?_render (c : Comparator) : ofText? c.render = some c := by
  cases c <;> rfl

end Comparator

end AttributeRules

import AttributeRules.Text.Basic
import AttributeRules.Token.Basic

/-!
# Connectives

Rules are joined by AND and OR. The case of the letters does not matter when
one is read; it is always written in capitals.
-/

namespace AttributeRules

/-- What joins two rules. -/
inductive Connective where
  /-- Both sides hold. -/
  | and
  /-- At least one side holds. -/
  | or
deriving DecidableEq, Repr

namespace Connective

/-- The connective in capitals. -/
def render : Connective → Text
  | and => ['A', 'N', 'D']
  | or => ['O', 'R']

/-- Reads a connective in letters of either case. -/
def ofText? (t : Text) : Option Connective :=
  if Text.sameIgnoringCase t and.render then some and
  else if Text.sameIgnoringCase t or.render then some or
  else none

/-- The connective a token is; only a word can be one. -/
def ofToken? : Token → Option Connective
  | .word t => ofText? t
  | _ => none

/-- The verdict of two sides that have both been decided. -/
def apply : Connective → Bool → Bool → Bool
  | and, left, right => left && right
  | or, left, right => left || right

@[simp] theorem ofText?_render (op : Connective) : ofText? op.render = some op := by
  cases op <;> decide

end Connective

end AttributeRules

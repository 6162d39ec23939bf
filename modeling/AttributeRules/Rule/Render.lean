import AttributeRules.Rule.Basic

/-!
# The text of a rule

A rule is written in infix form. A branch below another branch is put into
parentheses whatever its connective, so the text shows the shape of the tree
and no precedence has to be known to read it.
-/

namespace AttributeRules

namespace Rule

/-- Puts the text of a child into parentheses where the child is a branch. -/
def enclose (child : Rule) (t : Text) : Text :=
  if child.isOperand then t else '(' :: t ++ [')']

/-- The text of a rule. -/
def render : Rule → Text
  | operand c => c.render
  | branch op left right =>
    enclose left left.render ++ ' ' :: op.render ++ ' ' :: enclose right right.render

@[simp] theorem render_operand (c : Condition) : (operand c).render = c.render := rfl

end Rule

end AttributeRules

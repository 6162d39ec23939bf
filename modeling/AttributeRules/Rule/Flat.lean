import AttributeRules.Condition.Parse
import AttributeRules.Literal.Parse
import AttributeRules.Rule.Basic

/-!
# The flat grammar

The older form of a rule is seven words: two conditions of three words each
with a connective between them. Words are separated by blanks and by nothing
else, so neither parentheses nor quotes group anything. Each condition has to
read back from its own text, for it is stored as that text. What happens to
words after the seventh is a policy, not part of the grammar.
-/

namespace AttributeRules

/-- What becomes of the words after the last one of a flat rule. -/
inductive TrailingPolicy where
  /-- They are dropped. -/
  | ignore
  /-- They make the rule malformed. -/
  | reject
deriving DecidableEq, Repr

/-- Reads a connective in letters of either case. -/
def Connective.parse (t : Text) : Except Malformed Connective :=
  match ofText? t with
  | some op => .ok op
  | none => .error (.unknownConnective t)

namespace Condition

/-- Reads three words as a condition. -/
def ofWords (field comparator literal : Text) : Except Malformed Condition := do
  let comparator ← Comparator.parse comparator
  let literal ← Literal.parse literal
  build field comparator literal

end Condition

namespace Rule

/-- Reads a sequence of words as a rule of the flat grammar. -/
def ofWords (policy : TrailingPolicy) : List Text → Except Malformed Rule
  | field₁ :: comparator₁ :: literal₁ :: op :: field₂ :: comparator₂ :: literal₂ :: trailing =>
    if policy = .reject ∧ trailing ≠ [] then .error (.wordsTrailing trailing.length)
    else do
      let left ← Condition.ofWords field₁ comparator₁ literal₁
      let op ← Connective.parse op
      let right ← Condition.ofWords field₂ comparator₂ literal₂
      return branch op (operand left) (operand right)
  | words => .error (.wordsMissing words.length)

/-- Reads a text as a rule of the flat grammar. -/
def parseFlat (policy : TrailingPolicy) (t : Text) : Except Malformed Rule :=
  ofWords policy t.words

end Rule

end AttributeRules

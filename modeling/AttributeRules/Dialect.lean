import AttributeRules.Rule.Flat
import AttributeRules.Rule.Nested

/-!
# Dialects

A dialect says how the text of a rule is to be read: by which grammar, and
with which policy for trailing words. The policy matters to the flat grammar
only; under the nested one everything after a complete rule is a fault.
-/

namespace AttributeRules

/-- The grammars of rules. -/
inductive Grammar where
  /-- Conditions, connectives and parentheses in any number. -/
  | nested
  /-- Two conditions and a connective. -/
  | flat
deriving DecidableEq, Repr

/-- How the text of a rule is read. -/
structure Dialect where
  /-- The grammar of the rule. -/
  grammar : Grammar := .nested
  /-- What becomes of words after a flat rule. -/
  trailing : TrailingPolicy := .ignore
deriving DecidableEq, Repr

namespace Dialect

/-- Reads the text of a rule. -/
def parse (d : Dialect) (t : Text) : Except Malformed Rule :=
  match d.grammar with
  | .nested => Rule.parse t
  | .flat => Rule.parseFlat d.trailing t

end Dialect

end AttributeRules

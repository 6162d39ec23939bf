import AttributeRules.Dialect

/-!
# Configurations

An engine is configured by the dialect of its rules and by the number of rules
it keeps. Everything has a default.
-/

namespace AttributeRules

/-- The number of rules that are kept unless another is given. -/
def defaultCapacity : Nat := 2048

/-- The configuration of an engine. -/
structure Config where
  /-- How the text of a rule is read. -/
  dialect : Dialect := {}
  /-- The number of rules that are kept; with zero none is. -/
  capacity : Nat := defaultCapacity
deriving DecidableEq, Repr

/-- The name of a grammar. -/
def Grammar.name : Grammar → Text
  | nested => "nested".toList
  | flat => "flat".toList

/-- The name of a policy for trailing words. -/
def TrailingPolicy.name : TrailingPolicy → Text
  | ignore => "ignore".toList
  | reject => "reject".toList

end AttributeRules

import AttributeRules.Condition.Basic
import AttributeRules.Token.Basic

/-!
# Why a rule is malformed

Everything that can be wrong with the text of a rule, of a condition or of a
literal, and with parts put together by hand. Each cause carries what its
message shows and nothing else. `Malformed.message` is the only place where
the wording lives.
-/

namespace AttributeRules

/-- Why a text is not a rule, a condition or a literal, or why parts do not
make one. -/
inductive Malformed where
  /-- The rule has no token at all. -/
  | emptyRule
  /-- The rule ends where a condition should begin. -/
  | conditionMissing
  /-- The text ends where a field should stand. -/
  | fieldMissing
  /-- Something other than a word stands where a field should. -/
  | fieldExpected (found : Token)
  /-- The text ends after the field. -/
  | comparatorMissing (field : Text)
  /-- Something other than a word follows the field. -/
  | comparatorExpected (field : Text) (found : Token)
  /-- The text ends after the comparator. -/
  | literalMissing (field : Text) (comparator : Comparator)
  /-- A parenthesis follows the comparator. -/
  | literalExpected (field : Text) (comparator : Comparator) (found : Token)
  /-- A word stands for a comparator and is none. -/
  | unknownComparator (word : Text)
  /-- A word stands for a connective and is none. -/
  | unknownConnective (word : Text)
  /-- A group is followed by something other than its closing parenthesis. -/
  | closeExpected (found : Token)
  /-- The rule ends inside a group. -/
  | closeMissing
  /-- A parenthesis closes a group that was never opened. -/
  | closeUnexpected
  /-- Something follows a complete rule. -/
  | ruleContinues (found : Token)
  /-- Something follows a complete condition. -/
  | conditionContinues (found : Token) (condition : Condition)
  /-- A flat rule has too few words. -/
  | wordsMissing (found : Nat)
  /-- A flat rule has more words than it may. -/
  | wordsTrailing (extra : Nat)
  /-- A text is not exactly one literal. -/
  | notLiteral (text : Text)
  /-- A text cannot be put between quotes, since one of its own would close
  them. -/
  | notQuotable (written : Text)
  /-- A name cannot stand as the field of a condition. -/
  | notField (name : Text)
deriving DecidableEq, Repr

/-- The number of words of a flat rule. -/
def flatRuleLength : Nat := 7

namespace Malformed

/-- What is wrong, in words. -/
def reason : Malformed → Text
  | emptyRule => "empty rule".toList
  | conditionMissing => "unexpected end of rule, expected a condition".toList
  | fieldMissing => "unexpected end of rule, expected a field name".toList
  | fieldExpected found => "expected a field name, found ".toList ++ found.shown
  | comparatorMissing field =>
    "unexpected end of rule, expected a comparator after ".toList ++ Text.inQuotes field
  | comparatorExpected field found =>
    "expected a comparator after ".toList ++ Text.inQuotes field ++ ", found ".toList
      ++ found.shown
  | literalMissing field comparator =>
    "unexpected end of rule, expected a literal after ".toList
      ++ Text.inQuotes (field ++ ' ' :: comparator.render)
  | literalExpected field comparator found =>
    "expected a literal after ".toList ++ Text.inQuotes (field ++ ' ' :: comparator.render)
      ++ ", found ".toList ++ found.shown
  | unknownComparator word =>
    "unknown comparator ".toList ++ Text.inQuotes word ++ ", expected one of >, <, =".toList
  | unknownConnective word =>
    "unknown logical operator ".toList ++ Text.inQuotes word ++ ", expected AND or OR".toList
  | closeExpected found => "expected ')', found ".toList ++ found.shown
  | closeMissing => "unbalanced parentheses: missing ')'".toList
  | closeUnexpected => "unbalanced parentheses: unexpected ')'".toList
  | ruleContinues found =>
    "unexpected ".toList ++ found.shown ++ " after complete expression".toList
  | conditionContinues found condition =>
    "unexpected ".toList ++ found.shown ++ " after condition ".toList
      ++ Text.inQuotes condition.render
  | wordsMissing found =>
    "expected ".toList ++ Decimal.ofNat flatRuleLength ++ " tokens, found ".toList
      ++ Decimal.ofNat found
  | wordsTrailing extra =>
    "expected ".toList ++ Decimal.ofNat flatRuleLength ++ " tokens, found ".toList
      ++ Decimal.ofNat extra ++ " trailing".toList
  | notLiteral text => Text.inQuotes text ++ " is not a single literal".toList
  | notQuotable written => written ++ " cannot be written as a quoted literal".toList
  | notField name => "field ".toList ++ Text.inQuotes name ++ " is not a single bare word".toList

/-- The message of the error. -/
def message (e : Malformed) : Text := "Malformed rule: ".toList ++ e.reason

end Malformed

end AttributeRules

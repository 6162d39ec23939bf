import AttributeRules.Record.Basic
import AttributeRules.Rule.Basic

/-!
# Evaluating rules

A rule is evaluated against a record and always has a verdict. A condition is
decided if the record has its field and the value can be compared as asked: a
number by size with a literal that is an integer, a text by equality with the
text of the literal. A condition that is not decided counts as false, and the
report names it together with the reason.

Both sides of a connective are always evaluated, so the report does not depend
on the verdict of either. `Rule.holds` is the verdict alone.
-/

namespace AttributeRules

/-- Why a condition was not decided. -/
inductive Issue where
  /-- The record lacks the field. -/
  | missingField (field : Text)
  /-- The value of the field cannot be compared as asked. -/
  | typeMismatch (field : Text) (comparator : Comparator) (kind : ValueKind)
deriving DecidableEq, Repr

/-- The outcome of evaluating a rule. -/
structure Report where
  /-- Whether the rule holds. -/
  verdict : Bool
  /-- What was not decided, from left to right. -/
  unresolved : List Issue := []
deriving DecidableEq, Repr

namespace Report

/-- Whether every condition was decided. -/
def isConclusive (r : Report) : Bool := r.unresolved.isEmpty

/-- The report of two rules joined by a connective. -/
def join (op : Connective) (left right : Report) : Report :=
  ⟨op.apply left.verdict right.verdict, left.unresolved ++ right.unresolved⟩

end Report

namespace Condition

/-- Whether a value stands to the literal of the condition as asked, if that
can be decided. Integers are compared exactly; with a floating-point value the
literal is first rounded to floating point. -/
def compare? (c : Condition) (v : Value) : Option Bool :=
  match v, c.comparator, c.literal.integer? with
  | .integer n, .greater, some k => some (k < n.toInt)
  | .integer n, .less, some k => some (n.toInt < k)
  | .float x, .greater, some k => some ((Binary64.ofInt k).lt x)
  | .float x, .less, some k => some (x.lt (Binary64.ofInt k))
  -- a text is compared with the spelling, also where that is an integer
  | .text t, .equal, _ => some (t = c.literal.text)
  | _, _, _ => none

/-- Whether the condition holds of a record. -/
def holds (c : Condition) (r : Record) : Bool :=
  ((r.get? c.field).bind c.compare?).getD false

/-- The report on a single condition. -/
def report (c : Condition) (r : Record) : Report :=
  match r.get? c.field with
  | none => ⟨false, [.missingField c.field]⟩
  | some v =>
    match c.compare? v with
    | some verdict => ⟨verdict, []⟩
    | none => ⟨false, [.typeMismatch c.field c.comparator v.kind]⟩

end Condition

namespace Rule

/-- Whether the rule holds of a record. -/
def holds (r : Record) : Rule → Bool
  | operand c => c.holds r
  | branch op left right => op.apply (holds r left) (holds r right)

/-- The verdict on a rule and everything that was not decided. -/
def report (r : Record) : Rule → Report
  | operand c => c.report r
  | branch op left right => .join op (report r left) (report r right)

end Rule

end AttributeRules

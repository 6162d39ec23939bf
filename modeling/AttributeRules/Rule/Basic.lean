import AttributeRules.Condition.Basic
import AttributeRules.Connective

/-!
# Rules

A rule is a tree: conditions at the leaves, AND and OR at the branches. What a
rule is made of is read off by structural recursion; `Rule.conditions` is the
view most statements about rules go through.
-/

namespace AttributeRules

/-- A rule over the fields of a record. -/
inductive Rule where
  /-- A single condition. -/
  | operand (condition : Condition)
  /-- Two rules joined by a connective. -/
  | branch (op : Connective) (left right : Rule)
deriving DecidableEq, Repr

namespace Rule

/-- Both rules hold. -/
def and (left right : Rule) : Rule := branch .and left right

/-- At least one of two rules holds. -/
def or (left right : Rule) : Rule := branch .or left right

/-- Whether the rule is a single condition. -/
def isOperand : Rule → Bool
  | operand _ => true
  | branch .. => false

/-- The condition of a rule that is a single one. -/
def condition? : Rule → Option Condition
  | operand c => some c
  | branch .. => none

/-- The connective at the top of a rule. -/
def connective? : Rule → Option Connective
  | operand _ => none
  | branch op .. => some op

/-- The two rules that the top connective joins. -/
def children? : Rule → Option (Rule × Rule)
  | operand _ => none
  | branch _ left right => some (left, right)

/-- The number of conditions and connectives. -/
def size : Rule → Nat
  | operand _ => 1
  | branch _ left right => 1 + left.size + right.size

/-- The number of conditions and connectives on the longest way down. -/
def height : Rule → Nat
  | operand _ => 1
  | branch _ left right => 1 + max left.height right.height

/-- The conditions from left to right. -/
def conditions : Rule → List Condition
  | operand c => [c]
  | branch _ left right => left.conditions ++ right.conditions

@[simp] theorem size_operand (c : Condition) : (operand c).size = 1 := rfl

@[simp] theorem size_branch (op : Connective) (l r : Rule) :
    (branch op l r).size = 1 + l.size + r.size := rfl

@[simp] theorem conditions_operand (c : Condition) : (operand c).conditions = [c] := rfl

@[simp] theorem conditions_branch (op : Connective) (l r : Rule) :
    (branch op l r).conditions = l.conditions ++ r.conditions := rfl

end Rule

end AttributeRules

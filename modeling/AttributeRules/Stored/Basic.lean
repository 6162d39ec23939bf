import AttributeRules.Condition.Parse
import AttributeRules.Rule.Basic

/-!
# Stored rules

A rule is stored as a tree of plain nodes of one shape: a kind, a text, and
two optional children. A condition is stored as an operand whose text is the
condition's own; a connective is stored as an operator with two children.

The shape admits trees that are no rules, so reading one back can fail.
`StoredNode.toRule` reports the first fault it meets: a node before its
children, the left child before the right. Writing and reading are the two
sides of storage, and what is written is always read back as the same rule.
-/

namespace AttributeRules

/-- What a stored node stands for. -/
inductive NodeKind where
  /-- A connective. -/
  | operator
  /-- A condition. -/
  | operand
deriving DecidableEq, Repr

/-- The name of a kind of node. -/
def NodeKind.name : NodeKind → Text
  | operator => "operator".toList
  | operand => "operand".toList

/-- A node of a stored rule. -/
structure StoredNode where
  /-- Whether the node is a connective or a condition. -/
  kind : NodeKind
  /-- The connective or the condition. -/
  value : Text
  /-- The left child. -/
  left : Option StoredNode
  /-- The right child. -/
  right : Option StoredNode

/-- The two children of a node. -/
inductive Side where
  /-- The left child. -/
  | left
  /-- The right child. -/
  | right
deriving DecidableEq, Repr

/-- The name of a side. -/
def Side.name : Side → Text
  | left => "left".toList
  | right => "right".toList

/-- Why a stored node is no rule. -/
inductive StorageFault where
  /-- A kind of node has a name that means nothing. -/
  | unknownKind (name : Text)
  /-- An operand has children. -/
  | childrenOfOperand (value : Text)
  /-- An operator lacks a child. -/
  | childMissing (value : Text) (side : Side)
  /-- An operator is no connective. -/
  | unknownConnective (value : Text)
  /-- An operand is no condition. -/
  | invalidCondition (cause : Malformed)
deriving DecidableEq, Repr

namespace StorageFault

/-- The message of the error. -/
def message : StorageFault → Text
  | unknownKind name => "Unknown node_type: ".toList ++ name
  | childrenOfOperand value =>
    "Operand node ".toList ++ Text.inQuotes value ++ " must not have children".toList
  | childMissing value side =>
    "Operator node ".toList ++ Text.inQuotes value ++ " is missing its ".toList
      ++ side.name ++ " child".toList
  | unknownConnective value => "Unknown logical operator: ".toList ++ value
  | invalidCondition cause => "Invalid operand condition: ".toList ++ cause.message

end StorageFault

/-- Reads the name of a kind of node. -/
def NodeKind.parse (t : Text) : Except StorageFault NodeKind :=
  if t = operator.name then .ok .operator
  else if t = operand.name then .ok .operand
  else .error (.unknownKind t)

namespace StoredNode

/-- The stored form of a rule. -/
def ofRule : Rule → StoredNode
  | .operand c => ⟨.operand, c.render, none, none⟩
  | .branch op left right => ⟨.operator, op.render, some (ofRule left), some (ofRule right)⟩

/-- The rule a node stores. -/
def toRule : StoredNode → Except StorageFault Rule
  | ⟨.operand, value, none, none⟩ =>
    match Condition.parse value with
    | .ok c => .ok (.operand c)
    | .error e => .error (.invalidCondition e)
  | ⟨.operand, value, _, _⟩ => .error (.childrenOfOperand value)
  | ⟨.operator, value, left, right⟩ =>
    -- the node's own faults come before those of its children
    match Connective.ofText? value with
    | none => .error (.unknownConnective value)
    | some op =>
      match left, right with
      | none, _ => .error (.childMissing value .left)
      | some _, none => .error (.childMissing value .right)
      | some left, some right => do
        let left ← left.toRule
        let right ← right.toRule
        return .branch op left right

end StoredNode

end AttributeRules

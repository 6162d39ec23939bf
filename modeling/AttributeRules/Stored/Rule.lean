import AttributeRules.Error
import AttributeRules.Stored.Json

/-!
# Storing rules

What a caller does with a rule that is to be kept: it is turned into a JSON
value or a JSON text by way of its stored nodes, and back. Each reading is two,
of the nodes and of the rule that they store, and fails where either does. Of a
text it is only said that it could not be read.
-/

namespace AttributeRules

/-- The JSON value of a node as it is when decoded: with the members in the
order of their names. -/
def StoredNode.toValue : StoredNode → Json
  | ⟨kind, value, left, right⟩ =>
    .object <| Fields.ofEntries
      [(Member.kind.name, .string kind.name),
        (Member.value.name, .string value),
        (Member.left.name, match left with | none => .null | some n => n.toValue),
        (Member.right.name, match right with | none => .null | some n => n.toValue)]

namespace Rule

/-- The JSON value of a rule. -/
def toJson (r : Rule) : Json := (StoredNode.ofRule r).toValue

/-- The rule that a JSON value stores. -/
def ofJson (j : Json) : Except Error Rule :=
  match StoredNode.ofJson j with
  | .error e => .error (.mismatch e)
  | .ok n =>
    match n.toRule with
    | .error e => .error (.storage e)
    | .ok r => .ok r

/-- The JSON text of a rule. -/
def toJsonText (r : Rule) : Text := (StoredNode.ofRule r).toText

/-- The rule that a JSON text stores. -/
def ofJsonText (t : Text) : Except Error Rule :=
  match StoredNode.ofText? t with
  | none => .error .jsonText
  | some n =>
    match n.toRule with
    | .error _ => .error .jsonText
    | .ok r => .ok r

end Rule

end AttributeRules

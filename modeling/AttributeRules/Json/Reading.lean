import AttributeRules.Json.Mismatch

/-!
# Reading particular values

The readings that stored nodes and configurations share: a text, a number of
things, and one of several names. A name is given by its string, or by an
object with the name as its only member and `null` as that member's value.
-/

namespace AttributeRules

namespace Json

/-- Reads a text. -/
def asText : Json → Except Mismatch Text
  | string t => .ok t
  | j => .error (.wrongType j.found .text)

/-- Reads a number of things. -/
def asCount : Json → Except Mismatch Nat
  | number (.integer n) => if n < 0 then .error (.negativeCount n) else .ok n.toNat
  | j => .error (.wrongType j.found .count)

/-- Looks up a name among those that are allowed. -/
def choose {α : Type} (choices : List (Text × α)) (name : Text) : Except Mismatch α :=
  match choices.lookup name with
  | some x => .ok x
  | none => .error (.unknownChoice name (choices.map Prod.fst))

/-- Reads one of several names. -/
def asChoice {α : Type} (choices : List (Text × α)) : Json → Except Mismatch α
  | string name => choose choices name
  | object [(name, content)] => do
    let x ← choose choices name
    if content.isNull then .ok x else .error (.wrongType content.found .nothing)
  | object _ => .error .notOneMember
  | j => .error (.wrongType j.found .choice)

end Json

end AttributeRules

import AttributeRules.Malformed
import AttributeRules.Token.Scan

/-!
# Reading and making conditions

A condition is three tokens: a word for the field, a comparator and a literal.
Any word can be a field, also `and` or `>`; what a token may be is decided by
its place alone. The three readings of one token are shared by `Condition.parse`,
which wants nothing else in the text, and by the grammar of whole rules.

A condition put together by hand is accepted by `Condition.build` only if its
text reads back as the same condition, so that every condition can be stored.
-/

namespace AttributeRules

/-- Reads the sign of a comparator. -/
def Comparator.parse (t : Text) : Except Malformed Comparator :=
  match ofText? t with
  | some c => .ok c
  | none => .error (.unknownComparator t)

namespace Token

/-- The token as the field of a condition. -/
def asField : Token → Except Malformed Text
  | word t => .ok t
  | token => .error (.fieldExpected token)

/-- The token as the comparator that follows a field. -/
def asComparator (field : Text) : Token → Except Malformed Comparator
  | word t => Comparator.parse t
  | token => .error (.comparatorExpected field token)

/-- The token as the literal that follows a field and a comparator. -/
def asLiteral (field : Text) (comparator : Comparator) : Token → Except Malformed Literal
  | word t => .ok (Literal.ofToken t)
  | quoted t => .ok (Literal.ofToken t)
  | token => .error (.literalExpected field comparator token)

end Token

namespace Condition

/-- Reads a sequence of tokens that is exactly one condition. -/
def ofTokens : List Token → Except Malformed Condition
  | [] => .error .fieldMissing
  | first :: tokens => do
    let field ← first.asField
    match tokens with
    | [] => .error (.comparatorMissing field)
    | second :: tokens =>
      let comparator ← second.asComparator field
      match tokens with
      | [] => .error (.literalMissing field comparator)
      | third :: tokens =>
        let literal ← third.asLiteral field comparator
        match tokens with
        | [] => .ok ⟨field, comparator, literal⟩
        | next :: _ => .error (.conditionContinues next ⟨field, comparator, literal⟩)

/-- Reads a text that is exactly one condition. -/
def parse (t : Text) : Except Malformed Condition := ofTokens (Token.ofText t)

/-- Whether a condition comes back from its own text. -/
def ReadsBack (c : Condition) : Prop := (parse c.render).toOption = some c

instance (c : Condition) : Decidable c.ReadsBack :=
  inferInstanceAs (Decidable (_ = some c))

/-- Puts a condition together, if its text reads back as the same
condition. -/
def build (field : Text) (comparator : Comparator) (literal : Literal) :
    Except Malformed Condition :=
  let c : Condition := ⟨field, comparator, literal⟩
  if c.ReadsBack then .ok c else .error (.notField field)

end Condition

end AttributeRules

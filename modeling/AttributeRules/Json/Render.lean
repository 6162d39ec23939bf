import AttributeRules.Binary64.Notation
import AttributeRules.Json.Basic

/-!
# JSON text

Values are written without blanks. In a string only the quote, the backslash
and the control characters below the space are escaped, by their short escape
where they have one and by number otherwise; every other character stands for
itself.
-/

namespace AttributeRules

namespace Json

/-- A character as it stands in a string. -/
def escape (c : Char) : Text :=
  if c = '"' then ['\\', '"']
  else if c = '\\' then ['\\', '\\']
  else if c = '\x08' then ['\\', 'b']
  else if c = '\x0C' then ['\\', 'f']
  else if c = '\n' then ['\\', 'n']
  else if c = '\r' then ['\\', 'r']
  else if c = '\t' then ['\\', 't']
  else if c.toNat < 0x20 then
    ['\\', 'u', '0', '0', Nat.digitChar (c.toNat / 16), Nat.digitChar (c.toNat % 16)]
  else [c]

/-- A text as a string. -/
def quote (t : Text) : Text := '"' :: t.flatMap escape ++ ['"']

/-- A number. -/
def Number.render : Number → Text
  | .integer n => Decimal.ofInt n
  | .float x => x.render

mutual

/-- The compact text of a value. -/
def render : Json → Text
  | null => "null".toList
  | bool true => "true".toList
  | bool false => "false".toList
  | number n => n.render
  | string t => quote t
  | array elements => '[' :: [','].intercalate (renderElements elements) ++ [']']
  | object members => '\x7b' :: [','].intercalate (renderMembers members) ++ ['\x7d']

/-- The texts of the elements of an array. -/
def renderElements : List Json → List Text
  | [] => []
  | j :: js => render j :: renderElements js

/-- The texts of the members of an object. -/
def renderMembers : List (Text × Json) → List Text
  | [] => []
  | (name, j) :: members => (quote name ++ ':' :: render j) :: renderMembers members

end

end Json

end AttributeRules

import AttributeRules.Record.Basic

/-!
# Records from JSON

A record is read from an object whose members are all numbers or texts. A
truth value, `null`, an array or an object among them is refused and not turned
into something else; the error names the first such member in the order of the
names.
-/

namespace AttributeRules

/-- Why a JSON value is no record. -/
inductive RecordFault where
  /-- The value is not an object. -/
  | notObject (kind : Json.Kind)
  /-- A member is neither a number nor a text. -/
  | unsupported (field : Text) (kind : Json.Kind)
deriving DecidableEq, Repr

namespace RecordFault

/-- The message of the error. -/
def message : RecordFault → Text
  | notObject kind => "User data must be an object, got ".toList ++ kind.name
  | unsupported field kind =>
    "Unsupported value for field ".toList ++ Text.inQuotes field ++ ": ".toList ++ kind.name

end RecordFault

namespace Record

/-- Reads the value of one attribute. -/
def fieldValue (name : Text) : Json → Except RecordFault Value
  | .number (.integer n) =>
    match int64? n with
    | some n => .ok (.integer n)
    | none => .ok (.float (Binary64.ofInt n))
  | .number (.float x) => .ok (.float x)
  | .string t => .ok (.text t)
  | j => .error (.unsupported name j.kind)

/-- Reads a record. -/
def ofJson : Json → Except RecordFault Record
  | .object members => do
    let entries ← members.mapM fun (name, j) => do return (name, ← fieldValue name j)
    return ofEntries entries
  | j => .error (.notObject j.kind)

end Record

end AttributeRules

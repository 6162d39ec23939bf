import AttributeRules.Json.Document

/-!
# The value of a document

A document denotes a value if its strings spell text, its numerals denote
numbers and its arrays and objects are not nested too deeply. Of several
members with one name the last one counts.
-/

namespace AttributeRules

namespace Json

/-- The number of arrays and objects that may stand inside one another. -/
def depthLimit : Nat := 127

namespace Document

mutual

/-- The value of a document with at most `depth` nested arrays and objects. -/
def value? (depth : Nat) : Document → Option Json
  | .null => some .null
  | .bool b => some (.bool b)
  | .number x => x.number?.map .number
  | .string s => s.text?.map .string
  | .array elements =>
    match depth with
    | 0 => none
    | depth + 1 => (values? depth elements).map .array
  | .object members =>
    match depth with
    | 0 => none
    | depth + 1 => (entries? depth members).map fun entries => .object (Fields.ofEntries entries)

/-- The values of the elements of an array. -/
def values? (depth : Nat) : List Document → Option (List Json)
  | [] => some []
  | d :: ds => do
    let j ← value? depth d
    let js ← values? depth ds
    return j :: js

/-- The names and values of the members of an object. -/
def entries? (depth : Nat) : List (Spelling × Document) → Option (List (Text × Json))
  | [] => some []
  | (s, d) :: members => do
    let name ← s.text?
    let j ← value? depth d
    let entries ← entries? depth members
    return (name, j) :: entries

end

mutual

/-- Whether no object in a document repeats a name. -/
def namesDistinct : Document → Bool
  | .array elements => namesDistinctAll elements
  | .object members =>
    decide ((members.map fun (s, _) => s.text?).Nodup) && namesDistinctMembers members
  | _ => true

/-- Whether no object in any of the documents repeats a name. -/
def namesDistinctAll : List Document → Bool
  | [] => true
  | d :: ds => namesDistinct d && namesDistinctAll ds

/-- Whether no object in any of the members' values repeats a name. -/
def namesDistinctMembers : List (Spelling × Document) → Bool
  | [] => true
  | (_, d) :: members => namesDistinct d && namesDistinctMembers members

end

end Document

/-- Reads a JSON text and takes its value. -/
def ofText? (t : Text) : Option Json := do (← Document.ofText? t).value? depthLimit

end Json

end AttributeRules

import AttributeRules.Fields
import AttributeRules.Record.Value

/-!
# Records

A record holds the attributes of one subject, such as an age and a department.
Each name has at most one value; giving it another replaces the first.
-/

namespace AttributeRules

/-- The attributes of a subject. -/
structure Record where
  /-- The values by name. -/
  fields : Fields Value := []
deriving DecidableEq, Repr

namespace Record

/-- The value of an attribute. -/
def get? (r : Record) (name : Text) : Option Value := r.fields.get? name

/-- The record with an attribute given a value. -/
def insert (r : Record) (name : Text) (value : Value) : Record := ⟨r.fields.insert name value⟩

/-- Whether the record has an attribute. -/
def contains (r : Record) (name : Text) : Bool := (r.get? name).isSome

/-- The number of attributes. -/
def size (r : Record) : Nat := r.fields.length

/-- Whether the record has no attribute. -/
def isEmpty (r : Record) : Bool := r.fields.isEmpty

/-- The record with the given attributes; a later value replaces an earlier
one of the same name. -/
def ofEntries (entries : List (Text × Value)) : Record := ⟨Fields.ofEntries entries⟩

@[simp] theorem get?_insert_self (r : Record) (name : Text) (value : Value) :
    (r.insert name value).get? name = some value := Fields.get?_insert_self ..

theorem get?_insert_of_ne (r : Record) {name other : Text} (value : Value) (h : other ≠ name) :
    (r.insert name value).get? other = r.get? other := Fields.get?_insert_of_ne _ _ h

end Record

end AttributeRules

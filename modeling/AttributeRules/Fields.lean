import AttributeRules.Text.Basic

/-!
# Named fields

The members of a JSON object and the attributes of a record are both a finite
map from names to values. `Fields` keeps one entry per name, in the order of
the names by code point, so that going through the fields means going through
them in that order. Inserting a name that is already there replaces its value.
-/

namespace AttributeRules

/-- Values by name, in the order of the names. -/
abbrev Fields (α : Type) := List (Text × α)

namespace Fields

variable {α : Type}

/-- Gives a name a value. -/
def insert (fields : Fields α) (name : Text) (value : α) : Fields α :=
  match fields with
  | [] => [(name, value)]
  | (first, x) :: rest =>
    -- all further names are greater than the first
    if name < first then (name, value) :: (first, x) :: rest
    else if name = first then (name, value) :: rest
    else (first, x) :: insert rest name value

/-- The value of a name. -/
def get? (fields : Fields α) (name : Text) : Option α := fields.lookup name

/-- Collects named values in order; a later value replaces an earlier one of
the same name. -/
def ofEntries (entries : List (Text × α)) : Fields α :=
  entries.foldl (fun fields (name, value) => fields.insert name value) []

@[simp] theorem get?_nil (name : Text) : get? ([] : Fields α) name = none := rfl

/-- A name that was inserted has the value it was inserted with. -/
@[simp] theorem get?_insert_self (fields : Fields α) (name : Text) (value : α) :
    (fields.insert name value).get? name = some value := by
  induction fields with
  | nil => simp [insert, get?]
  | cons entry rest ih =>
    obtain ⟨first, x⟩ := entry
    rw [insert]
    split
    · simp [get?]
    · split
      · simp [get?]
      · next hne =>
        have : (name == first) = false := by simpa using hne
        simpa [get?, List.lookup_cons, this] using ih

/-- Inserting a name leaves the values of all others alone. -/
theorem get?_insert_of_ne (fields : Fields α) {name other : Text} (value : α)
    (h : other ≠ name) : (fields.insert name value).get? other = fields.get? other := by
  have hne : (other == name) = false := by simpa using h
  induction fields with
  | nil => simp [insert, get?, List.lookup_cons, hne]
  | cons entry rest ih =>
    obtain ⟨first, x⟩ := entry
    rw [insert]
    split
    · simp [get?, List.lookup_cons, hne]
    · split
      · next heq => simp [get?, List.lookup_cons, ← heq, hne]
      · simp only [get?, List.lookup_cons] at ih ⊢
        rw [ih]

end Fields

end AttributeRules

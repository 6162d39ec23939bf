import AttributeRules.Rule.Basic

/-!
# Combining rules

Several rules are combined into the one that asks for all of them: the first
AND the second, AND the third, and so on from the left. A single rule is left
as it is, and no rules at all have no combination.
-/

namespace AttributeRules

namespace Rule

/-- The conjunction of one or more rules. -/
def combine? : List Rule → Option Rule
  | [] => none
  | first :: others => some (others.foldl and first)

@[simp] theorem combine?_singleton (r : Rule) : combine? [r] = some r := rfl

@[simp] theorem combine?_eq_none_iff {rs : List Rule} : combine? rs = none ↔ rs = [] := by
  cases rs <;> simp [combine?]

end Rule

end AttributeRules

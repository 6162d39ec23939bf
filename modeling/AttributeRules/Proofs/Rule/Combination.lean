import Mathlib.Algebra.GroupWithZero.Nat
import AttributeRules.Proofs.Evaluation.Report
import AttributeRules.Rule.Combine

/-!
# What a combination asks

A combination grows from the left: what has been combined so far is joined with
the next rule by AND. What is said here of a combination is therefore first said
of any rule that is prolonged by others in this way. It keeps the conditions of
all of them in order, has one connective more for each of the others, and holds
exactly where all of them hold (`Rule.conditions_foldl_and`,
`Rule.size_foldl_and`, `Rule.holds_foldl_and`).

The issues that a combination reports take no induction of their own, for a
report lists the issues of the conditions and these are in place already
(`Rule.unresolved_combine?`). Nor does combining in stages: prolonging a
combination by further rules is what combining all of them does anyway
(`Rule.combine?_append`).
-/

namespace AttributeRules

namespace Rule

/-! ## A rule prolonged by others -/

/-- A conjunction prolonged by rules has their conditions after its own. -/
theorem conditions_foldl_and (others : List Rule) (first : Rule) :
    (others.foldl Rule.and first).conditions = first.conditions ++ others.flatMap conditions := by
  induction others generalizing first with
  | nil => exact (List.append_nil _).symm
  | cons other others ih =>
    rw [List.foldl_cons, ih, Rule.and, conditions_branch, List.flatMap_cons, List.append_assoc]

/-- A conjunction prolonged by rules grows by their sizes and by a connective
for each. -/
theorem size_foldl_and (others : List Rule) (first : Rule) :
    (others.foldl Rule.and first).size
      = first.size + (others.map size).sum + others.length := by
  induction others generalizing first with
  | nil => rfl
  | cons other others ih =>
    rw [List.foldl_cons, ih, Rule.and, size_branch, List.map_cons, List.sum_cons,
      List.length_cons]
    omega

/-- A conjunction prolonged by rules holds where it and all of them hold. -/
theorem holds_foldl_and (others : List Rule) (first : Rule) (r : Record) :
    (others.foldl Rule.and first).holds r
      = (first.holds r && others.all fun rule => rule.holds r) := by
  induction others generalizing first with
  | nil => exact (Bool.and_true _).symm
  | cons other others ih =>
    rw [List.foldl_cons, ih, List.all_cons, ← Bool.and_assoc]
    rfl

/-! ## Combinations -/

/-- A combination has the conditions of what is combined, in order. -/
theorem conditions_combine? {rs : List Rule} {n : Rule} (h : combine? rs = some n) :
    n.conditions = rs.flatMap conditions := by
  cases rs with
  | nil => cases h
  | cons first others =>
    obtain rfl := Option.some.inj h
    exact conditions_foldl_and others first

/-- A combination has the nodes of what is combined and the connectives between
them. -/
theorem size_combine? {rs : List Rule} {n : Rule} (h : combine? rs = some n) :
    n.size = (rs.map size).sum + (rs.length - 1) := by
  cases rs with
  | nil => cases h
  | cons first others =>
    obtain rfl := Option.some.inj h
    exact size_foldl_and others first

/-- **A combination holds where all that is combined holds.** -/
theorem holds_combine? {rs : List Rule} {n : Rule} (h : combine? rs = some n) (r : Record) :
    n.holds r = rs.all fun rule => rule.holds r := by
  cases rs with
  | nil => cases h
  | cons first others =>
    obtain rfl := Option.some.inj h
    exact holds_foldl_and others first r

/-- **A combination leaves unresolved what the rules leave unresolved**, in
their order. -/
theorem unresolved_combine? {rs : List Rule} {n : Rule} (h : combine? rs = some n) (r : Record) :
    (n.report r).unresolved = rs.flatMap fun rule => (rule.report r).unresolved := by
  simp only [report_eq]
  rw [conditions_combine? h, List.filterMap_flatMap]

/-- **Combining can be done in stages**: the first rules may be combined among
themselves before the others are added. -/
theorem combine?_append {first : List Rule} {m : Rule} (h : combine? first = some m)
    (others : List Rule) : combine? (first ++ others) = combine? (m :: others) := by
  cases first with
  | nil => cases h
  | cons head tail =>
    obtain rfl := Option.some.inj h
    exact congrArg some List.foldl_append

/-- There is a combination of one or more rules. -/
theorem exists_combine? {rs : List Rule} (h : rs ≠ []) : ∃ n, combine? rs = some n :=
  Option.ne_none_iff_exists'.1 (mt combine?_eq_none_iff.1 h)

/-- **Combining is conjunction, loses nothing and can be done in stages.** It
fails on no rules at all and on nothing else. What it gives has the conditions of
all the rules, their nodes and one connective between any two that follow each
other; on every record its verdict is that all of them hold, and it reports
everything that one of them reports. And it is the same rule if some of the
rules, from the first one on, were combined before. -/
theorem combine?_conjunction (rs : List Rule) :
    (combine? rs = none ↔ rs = [])
      ∧ (rs ≠ [] → ∃ n, combine? rs = some n
        ∧ n.conditions = rs.flatMap conditions
        ∧ n.size = (rs.map size).sum + (rs.length - 1)
        ∧ (∀ r, (n.report r).verdict = (rs.all fun rule => (rule.report r).verdict)
          ∧ (n.report r).unresolved = rs.flatMap fun rule => (rule.report r).unresolved)
        ∧ ∀ first others, rs = first ++ others → first ≠ [] →
          ∃ m, combine? first = some m ∧ combine? (m :: others) = some n) := by
  refine ⟨combine?_eq_none_iff, fun hne => ?_⟩
  obtain ⟨n, hn⟩ := exists_combine? hne
  refine ⟨n, hn, conditions_combine? hn, size_combine? hn, fun r => ⟨?_, ?_⟩, ?_⟩
  · simp only [report_eq]
    exact holds_combine? hn r
  · exact unresolved_combine? hn r
  · rintro first others rfl hfirst
    obtain ⟨m, hm⟩ := exists_combine? hfirst
    exact ⟨m, hm, (combine?_append hm others).symm.trans hn⟩

/-- Three rules, the first two of them combined beforehand. -/
theorem combine?_two_and_third :
    let age := operand ⟨"age".toList, .greater, .bare "30".toList⟩
    let payOrCity := Rule.or (operand ⟨"pay".toList, .less, .bare "5".toList⟩)
      (operand ⟨"city".toList, .equal, .quoted "Paris".toList⟩)
    [age, payOrCity, age] ≠ []
      ∧ ∃ n m, combine? [age, payOrCity, age] = some n ∧ n.size = 7
        ∧ combine? [age, payOrCity] = some m ∧ combine? [m, age] = some n := by
  intro age payOrCity
  have hne : [age, payOrCity, age] ≠ [] := List.cons_ne_nil _ _
  obtain ⟨n, hn, -, hsize, -, hstages⟩ := (combine?_conjunction [age, payOrCity, age]).2 hne
  obtain ⟨m, hm, hmn⟩ := hstages [age, payOrCity] [age] rfl (List.cons_ne_nil _ _)
  exact ⟨hne, n, m, hn, hsize, hm, hmn⟩

end Rule

end AttributeRules

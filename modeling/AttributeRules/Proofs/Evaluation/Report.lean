import AttributeRules.Evaluation
import AttributeRules.Proofs.Binary64.Nearest

/-!
# What a report says

A rule is evaluated in two ways, for its verdict alone and for a report, and
neither way stops early. What they find is stated here without reference to how
they go about it.

For a single condition there are two questions. One is whether the record lets
it be decided, and `Condition.issue?` names what is in the way: the field is
missing, or its value does not suit the comparator and the literal
(`Condition.Mismatches`). The other is whether the value stands to the literal
as asked, which is `Condition.MetBy`: integers are compared as integers, a
floating-point value with the literal turned into floating point, and a text
with the spelling of the literal. Turning the literal into floating point only
matters for the value it is turned into (`Condition.metBy_float_iff`). Where
there is an issue the condition counts as false (`Condition.issue?_cases`),
although it might be met in a larger record.

For a rule the verdict is the formula of AND and OR over its conditions,
`Rule.TrueUnder`, and the report lists the issues of all conditions from left to
right, however often one occurs (`Rule.report_eq`). Since the list is that of the
conditions alone, no connective and no verdict has any influence on it.
-/

namespace AttributeRules

/-! ## One condition and one value -/

namespace Condition

/-- Whether a value cannot be compared as a condition asks: a number is not
compared for equality nor with a literal that is no integer, and a text is not
compared by size. -/
def Mismatches (c : Condition) : Value → Prop
  | .text _ => c.comparator = .greater ∨ c.comparator = .less
  | _ => c.comparator = .equal ∨ c.literal.integer? = none

instance (c : Condition) : (v : Value) → Decidable (c.Mismatches v)
  | .integer _ => inferInstanceAs (Decidable (_ ∨ _))
  | .float _ => inferInstanceAs (Decidable (_ ∨ _))
  | .text _ => inferInstanceAs (Decidable (_ ∨ _))

/-- **Whether a value stands to the literal of a condition as asked.** -/
def MetBy (c : Condition) : Value → Prop
  | .integer n => ∃ k, c.literal.integer? = some k
      ∧ (c.comparator = .greater ∧ k < n.toInt ∨ c.comparator = .less ∧ n.toInt < k)
  | .float x => ∃ k, c.literal.integer? = some k
      ∧ (c.comparator = .greater ∧ (Binary64.ofInt k).lt x = true
        ∨ c.comparator = .less ∧ x.lt (Binary64.ofInt k) = true)
  | .text t => c.comparator = .equal ∧ t = c.literal.text

/-- **What a comparison finds**: nothing where the value mismatches, and
otherwise whether the value meets the condition. -/
theorem compare?_cases (c : Condition) (v : Value) :
    (c.Mismatches v ∧ ¬ c.MetBy v ∧ c.compare? v = none)
      ∨ ¬ c.Mismatches v ∧ ∃ verdict, c.compare? v = some verdict
        ∧ (verdict = true ↔ c.MetBy v) := by
  unfold Mismatches MetBy compare?
  cases v with
  | integer n => cases c.comparator <;> cases c.literal.integer? <;> simp
  | float x => cases c.comparator <;> cases c.literal.integer? <;> simp
  | text t => cases c.comparator <;> simp

/-- **A floating-point value is compared with the integer of the literal**, but
for the value that the integer is rounded to, which is neither greater nor less.
Up to `2 ^ 53` that value is the integer itself (`Binary64.toRat_ofInt`). -/
theorem metBy_float_iff {c : Condition} {x : Binary64} :
    c.MetBy (.float x) ↔ x.isNumber = true ∧ ∃ k, c.literal.integer? = some k
      ∧ x.toRat ≠ (Binary64.ofInt k).toRat
      ∧ (c.comparator = .greater ∧ k < x.toRat ∨ c.comparator = .less ∧ x.toRat < k) := by
  simp only [MetBy, Binary64.ofInt_lt_iff, Binary64.lt_ofInt_iff]
  grind

/-! ## One condition and one record -/

/-- Whether a record satisfies a condition: its value of the field meets it. -/
def SatisfiedBy (c : Condition) (r : Record) : Prop :=
  ∃ v, r.get? c.field = some v ∧ c.MetBy v

/-- **What keeps a condition from being decided on a record**, if anything
does. -/
def issue? (c : Condition) (r : Record) : Option Issue :=
  match r.get? c.field with
  | none => some (.missingField c.field)
  | some v => if c.Mismatches v then some (.typeMismatch c.field c.comparator v.kind) else none

/-- **A condition is undecided and false, or is decided by the value of its
field.** -/
theorem issue?_cases (c : Condition) (r : Record) :
    (c.issue? r ≠ none ∧ ¬ c.SatisfiedBy r)
      ∨ c.issue? r = none ∧ ∃ v, r.get? c.field = some v ∧ (c.SatisfiedBy r ↔ c.MetBy v) := by
  unfold issue? SatisfiedBy
  cases hvalue : r.get? c.field with
  | none => simp
  | some v =>
    obtain ⟨hmismatch, hnot, -⟩ | ⟨hmatch, -⟩ := c.compare?_cases v
    · simp [hmismatch, hnot]
    · simp [hmatch]

/-- **A condition holds of the records that satisfy it**, and its report shows
the issue it has. -/
theorem report_cases (c : Condition) (r : Record) :
    (c.holds r = true ↔ c.SatisfiedBy r) ∧ c.report r = ⟨c.holds r, (c.issue? r).toList⟩ := by
  unfold holds report issue? SatisfiedBy
  cases hvalue : r.get? c.field with
  | none => simp
  | some v =>
    obtain ⟨hmismatch, hnot, hcompare⟩ | ⟨hmatch, verdict, hcompare, hverdict⟩ := c.compare?_cases v
    · simp [hmismatch, hnot, hcompare]
    · simp [hmatch, hcompare, hverdict]

end Condition

/-! ## Rules -/

namespace Rule

/-- **The formula of a rule**: whether it is true when its conditions have the
given truth values. -/
def TrueUnder (truth : Condition → Prop) : Rule → Prop
  | operand c => truth c
  | branch .and left right => left.TrueUnder truth ∧ right.TrueUnder truth
  | branch .or left right => left.TrueUnder truth ∨ right.TrueUnder truth

/-- **A rule holds of a record exactly if its formula is true there.** -/
theorem holds_iff_trueUnder (rule : Rule) (r : Record) :
    rule.holds r = true ↔ rule.TrueUnder fun c => c.SatisfiedBy r := by
  induction rule with
  | operand c => exact (c.report_cases r).1
  | branch op left right ihleft ihright =>
    cases op with
    | and => exact Bool.and_eq_true_iff.trans (and_congr ihleft ihright)
    | or => exact Bool.or_eq_true_iff.trans (or_congr ihleft ihright)

/-- **A report is the verdict and the issues of all conditions**, from left to
right. -/
theorem report_eq (rule : Rule) (r : Record) :
    rule.report r = ⟨rule.holds r, rule.conditions.filterMap fun c => c.issue? r⟩ := by
  induction rule with
  | operand c =>
    have hissues : [c].filterMap (fun c => c.issue? r) = (c.issue? r).toList := by
      cases hissue : c.issue? r <;> simp [hissue]
    rw [conditions_operand, hissues]
    exact (c.report_cases r).2
  | branch op left right ihleft ihright =>
    rw [report, ihleft, ihright, conditions_branch, List.filterMap_append]
    rfl

/-- **What a report says.** Its verdict is that of the plain evaluation, and both
are the formula of the rule over what the record satisfies. What it lists as
unresolved is the issue of every condition that has one, each time the condition
occurs and in the order of the conditions; such a condition counts as false, and
any other as whether the value of its field meets it. -/
theorem report_exact (rule : Rule) (r : Record) :
    (rule.report r).verdict = rule.holds r
      ∧ (rule.holds r = true ↔ rule.TrueUnder fun c => c.SatisfiedBy r)
      ∧ (rule.report r).unresolved = rule.conditions.filterMap (fun c => c.issue? r)
      ∧ ∀ c : Condition, (c.issue? r ≠ none ∧ ¬ c.SatisfiedBy r)
          ∨ c.issue? r = none
            ∧ ∃ v, r.get? c.field = some v ∧ (c.SatisfiedBy r ↔ c.MetBy v) := by
  rw [report_eq]
  exact ⟨rfl, rule.holds_iff_trueUnder r, rfl, fun c => c.issue?_cases r⟩

/-- The right side is reported on although the left side has decided. -/
example :
    let rule := Rule.or (operand ⟨"age".toList, .greater, .bare "30".toList⟩)
      (.and (operand ⟨"age".toList, .equal, .bare "30".toList⟩)
        (operand ⟨"pay".toList, .less, .bare "5".toList⟩))
    rule.report (Record.ofEntries [("age".toList, .integer 31)])
      = ⟨true, [.typeMismatch "age".toList .equal .integer, .missingField "pay".toList]⟩ := by
  decide

end Rule

end AttributeRules
